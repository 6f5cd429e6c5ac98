import SqlTemplate.Proofs.Presets
import SqlTemplate.Proofs.Reading

/-!
# Upper and lower case

The case of the letters `A` to `Z` makes no difference to reading, except in the
tags of dollar quotes.  `Text.lower` writes a text in small letters, and each part
of reading finds in `lower text` what it finds in `text`:

* `Text.apply_toLower`: a property of characters that does not tell `A` to `Z` from
  `a` to `z` is the same for a character and its small form.  The classes of
  characters that reading knows are such properties.
* `Lexeme.Form.recogniser_lower`: so every form of lexeme is recognised in the same
  place.  This is where dollar quotes have to be off, and where no letter may be
  an operator, a sigil or a quote.
* `lexemes_lower`: so the lexemes are the same up to case, and `scan_ignores_case`
  follows, because a small letter takes as many bytes as its capital.
-/

namespace SqlTemplate

open Verdict (accept reject)

/-! ### Characters -/

namespace Text

/-- The letters with a small form: `A` to `Z`. -/
def capitals : List Char := (List.range' 0x41 26).map Char.ofNat

theorem mem_capitals_of_toLower_ne {c : Char} (h : c.toLower ≠ c) : c ∈ capitals := by
  unfold Char.toLower at h
  split at h
  · next hRange =>
    have hLow : 0x41 ≤ c.toNat := hRange.1
    have hHigh : c.toNat ≤ 0x5A := hRange.2
    refine List.mem_map.2 ⟨c.toNat, ?_, Char.ofNat_toNat c⟩
    rw [List.mem_range'_1]
    omega
  · exact absurd rfl h

/-- **What does not tell capitals from small letters does not depend on case.** -/
theorem apply_toLower {α : Type} [DecidableEq α] {p : Char → α}
    (h : (capitals.all fun c => p c.toLower = p c) = true) (c : Char) : p c.toLower = p c := by
  by_cases hc : c.toLower = c
  · rw [hc]
  · exact of_decide_eq_true (List.all_eq_true.1 h c (mem_capitals_of_toLower_ne hc))

@[simp] theorem toLower_toLower (c : Char) : c.toLower.toLower = c.toLower :=
  apply_toLower (by decide) c

@[simp] theorem isSpace_toLower (c : Char) : isSpace c.toLower = isSpace c :=
  apply_toLower (by decide) c

@[simp] theorem isWordStart_toLower (c : Char) : isWordStart c.toLower = isWordStart c :=
  apply_toLower (by decide +kernel) c

@[simp] theorem isWordChar_toLower (c : Char) : isWordChar c.toLower = isWordChar c :=
  apply_toLower (by decide +kernel) c

@[simp] theorem isDigit_toLower (c : Char) : c.toLower.isDigit = c.isDigit :=
  apply_toLower (by decide) c

@[simp] theorem isAlphanum_toLower (c : Char) : c.toLower.isAlphanum = c.isAlphanum :=
  apply_toLower (by decide) c

@[simp] theorem isBinaryDigit_toLower (c : Char) :
    Literal.isBinaryDigit c.toLower = Literal.isBinaryDigit c :=
  apply_toLower (by decide) c

@[simp] theorem isHexDigit_toLower (c : Char) :
    Literal.isHexDigit c.toLower = Literal.isHexDigit c :=
  apply_toLower (by decide) c

@[simp] theorem upperChar_toLower (c : Char) : upperChar c.toLower = upperChar c :=
  apply_toLower (by decide) c

theorem isAlpha_of_toLower_ne {c : Char} (h : c.toLower ≠ c) :
    c.isAlpha = true ∧ c.toLower.isAlpha = true := by
  have hAll : (capitals.all fun c => c.isAlpha && c.toLower.isAlpha) = true := by decide
  exact Bool.and_eq_true_iff.1 (List.all_eq_true.1 hAll c (mem_capitals_of_toLower_ne h))

theorem toLower_eq_self {c : Char} (h : c.isAlpha = false) : c.toLower = c := by
  by_cases hc : c.toLower = c
  · exact hc
  · rw [(isAlpha_of_toLower_ne hc).1] at h
    cases h

/-- A character other than a letter is told from every other one in either case. -/
@[simp] theorem toLower_eq_iff {x : Char} (hx : x.isAlpha = false) {c : Char} :
    c.toLower = x ↔ c = x := by
  by_cases hc : c.toLower = c
  · rw [hc]
  · obtain ⟨hCapital, hSmall⟩ := isAlpha_of_toLower_ne hc
    constructor
    · rintro rfl
      rw [hSmall] at hx
      cases hx
    · rintro rfl
      rw [hCapital] at hx
      cases hx

@[simp] theorem toLower_beq {x : Char} (hx : x.isAlpha = false) (c : Char) :
    (c.toLower == x) = (c == x) := by
  rw [Bool.eq_iff_iff, beq_iff_eq, beq_iff_eq, toLower_eq_iff hx]

@[simp] theorem utf8Size_toLower (c : Char) : c.toLower.utf8Size = c.utf8Size :=
  apply_toLower (by decide) c

/-! ### Texts -/

/-- The text in small letters. -/
def lower (text : List Char) : List Char := text.map Char.toLower

@[simp] theorem lower_nil : lower [] = [] := rfl

@[simp] theorem lower_cons (c : Char) (text : List Char) :
    lower (c :: text) = c.toLower :: lower text := rfl

@[simp] theorem length_lower (text : List Char) : (lower text).length = text.length :=
  List.length_map _

@[simp] theorem lower_eq_nil_iff {text : List Char} : lower text = [] ↔ text = [] :=
  List.map_eq_nil_iff

@[simp] theorem tail_lower (text : List Char) : (lower text).tail = lower text.tail :=
  List.map_tail.symm

@[simp] theorem take_lower (n : Nat) (text : List Char) :
    (lower text).take n = lower (text.take n) :=
  List.map_take.symm

@[simp] theorem drop_lower (n : Nat) (text : List Char) :
    (lower text).drop n = lower (text.drop n) :=
  List.map_drop.symm

@[simp] theorem head?_lower_beq {x : Char} (hx : x.isAlpha = false) (text : List Char) :
    ((lower text).head? == some x) = (text.head? == some x) := by
  cases text with
  | nil => rfl
  | cons c rest => simp [hx]

theorem all_lower {p : Char → Bool} (hp : ∀ c, p c.toLower = p c) (text : List Char) :
    (lower text).all p = text.all p := by
  rw [lower, List.all_map]
  exact congrArg text.all (funext hp)

theorem length_takeWhile_lower {p : Char → Bool} (hp : ∀ c, p c.toLower = p c)
    (text : List Char) : ((lower text).takeWhile p).length = (text.takeWhile p).length := by
  rw [lower, List.takeWhile_map, List.length_map]
  exact congrArg (fun q => (text.takeWhile q).length) (funext hp)

@[simp] theorem spaceRun_lower (text : List Char) : spaceRun (lower text) = spaceRun text :=
  length_takeWhile_lower isSpace_toLower text

@[simp] theorem wordRun_lower (text : List Char) : wordRun (lower text) = wordRun text :=
  length_takeWhile_lower isWordChar_toLower text

@[simp] theorem startsWord_lower (text : List Char) :
    startsWord (lower text) = startsWord text := by
  cases text with
  | nil => rfl
  | cons c rest => exact isWordStart_toLower c

@[simp] theorem upper_lower (text : List Char) : upper (lower text) = upper text := by
  rw [upper, lower, List.flatMap_map, upper]
  exact congrArg (text.flatMap ·) (funext upperChar_toLower)

/-- A pattern without letters is found in the same place. -/
theorem isPrefixOf_lower {pattern : List Char} (h : ∀ x ∈ pattern, x.isAlpha = false)
    (text : List Char) : pattern.isPrefixOf (lower text) = pattern.isPrefixOf text := by
  induction pattern generalizing text with
  | nil => rfl
  | cons x pattern ih =>
    rw [List.forall_mem_cons] at h
    cases text with
    | nil => rfl
    | cons c rest =>
      rw [lower_cons, List.isPrefixOf_cons_cons, List.isPrefixOf_cons_cons, ih h.2, Bool.beq_comm,
        toLower_beq h.1, Bool.beq_comm]

theorem indexOf?_lower {pattern : List Char} (h : ∀ x ∈ pattern, x.isAlpha = false)
    (text : List Char) : indexOf? pattern (lower text) = indexOf? pattern text := by
  induction text with
  | nil => rfl
  | cons c rest ih => rw [lower_cons, indexOf?, indexOf?, ih, ← lower_cons, isPrefixOf_lower h]

end Text

open Text (lower)

@[simp] theorem Position.advance_lower (p : Position) (text : List Char) :
    p.advance (lower text) = p.advance text := by
  have hStep : ∀ (p : Position) (c : Char), p.step c.toLower = p.step c := by
    intro p c
    simp [Position.step]
  rw [Position.advance, lower, List.foldl_map, Position.advance]
  exact congrArg (fun f => text.foldl f p) (funext fun q => funext (hStep q))

@[simp] theorem Text.byteLength_lower (text : List Char) :
    Text.byteLength (lower text) = Text.byteLength text := by
  induction text with
  | nil => rfl
  | cons c rest ih => simp [ih]

@[simp] theorem Dialect.wordKind_lower (d : Dialect) (w : Word) :
    d.wordKind (lower w) = d.wordKind w := by
  simp [Dialect.wordKind, Dialect.isKeyword, Dialect.isTypeName]

/-! ### Quoted runs and brackets -/

theorem Quoted.closing?_lower {quote : Char} (hQuote : quote.isAlpha = false) (escapes : Bool)
    (text : List Char) : closing? quote escapes (lower text) = closing? quote escapes text := by
  fun_induction closing? quote escapes text with
  | case7 c rest hEscape hc ih =>
    have hSlash : escapes = true → c.toLower ≠ '\\' := by simpa using hEscape
    have hOther : c.toLower ≠ quote := by simpa [hQuote] using hc
    rw [Text.lower_cons, closing?_plain hSlash hOther, ih]
  | _ => simp_all [closing?]

@[simp] theorem Quoted.length?_lower {quote : Char} (hQuote : quote.isAlpha = false)
    (escapes : Bool) (text : List Char) :
    length? quote escapes (lower text) = length? quote escapes text := by
  rw [length?, Text.tail_lower, closing?_lower hQuote, length?]

namespace Brackets

/-- A mark without letters. -/
def IsSign (mark : Char × Char) : Prop := mark.1.isAlpha = false ∧ mark.2.isAlpha = false

theorem IsSign.toLower_eq_iff {mark : Char × Char} (h : IsSign mark) (c d : Char) :
    (c.toLower, d.toLower) = mark ↔ (c, d) = mark := by
  obtain ⟨x, y⟩ := mark
  simp [Text.toLower_eq_iff h.1, Text.toLower_eq_iff h.2]

theorem startsWith_lower {mark : Char × Char} (h : IsSign mark) (text : List Char) :
    startsWith mark (lower text) = startsWith mark text := by
  match text with
  | [] => rfl
  | [_] => rfl
  | c :: d :: rest => simp [startsWith, h.1, h.2]

theorem close?_lower {b : Brackets} (hOpener : IsSign b.opener) (hCloser : IsSign b.closer)
    (depth : Nat) (text : List Char) : b.close? depth (lower text) = b.close? depth text := by
  fun_induction close? b depth text with
  | case5 text depth hShort =>
    cases text with
    | nil => rfl
    | cons c rest =>
      cases rest with
      | nil => rfl
      | cons d rest => exact absurd rfl (hShort c d rest)
  | _ => simp_all [close?_cons_cons, hOpener.toLower_eq_iff, hCloser.toLower_eq_iff]

end Brackets

/-! ### Numbers -/

namespace Number

@[simp] theorem digitRun_lower (text : List Char) : digitRun (lower text) = digitRun text :=
  Text.length_takeWhile_lower Text.isDigit_toLower text

@[simp] theorem startsDigit_lower (text : List Char) :
    startsDigit (lower text) = startsDigit text := by
  cases text with
  | nil => rfl
  | cons c rest => exact Text.isDigit_toLower c

@[simp] theorem startsQualified_lower (text : List Char) :
    startsQualified (lower text) = startsQualified text := by
  cases text with
  | nil => rfl
  | cons c rest => exact Text.apply_toLower (p := fun c => startsQualified [c]) (by decide) c

@[simp] theorem fractionLength_lower (digits : Bool) (text : List Char) :
    fractionLength digits (lower text) = fractionLength digits text := by
  cases text with
  | nil => rfl
  | cons c rest =>
    by_cases hc : c = '.'
    · subst hc
      simp [fractionLength]
    · have hLower : c.toLower ≠ '.' := by simpa using hc
      rw [Text.lower_cons, fractionLength_of_ne hLower, fractionLength_of_ne hc]

@[simp] theorem signLength_lower (text : List Char) :
    signLength (lower text) = signLength text := by
  cases text with
  | nil => rfl
  | cons c rest =>
    by_cases hPlus : c = '+'
    · subst hPlus
      rfl
    · by_cases hMinus : c = '-'
      · subst hMinus
        rfl
      · simp [signLength, hPlus, hMinus]

@[simp] theorem exponentLength_lower (text : List Char) :
    exponentLength (lower text) = exponentLength text := by
  cases text with
  | nil => rfl
  | cons c rest =>
    have hMark : (c.toLower == 'e' || c.toLower == 'E') = (c == 'e' || c == 'E') :=
      Text.apply_toLower (p := fun c => c == 'e' || c == 'E') (by decide) c
    simp only [Text.lower_cons, exponentLength, hMark, signLength_lower, Text.drop_lower,
      digitRun_lower]

@[simp] theorem length_lower (text : List Char) : length (lower text) = length text := by
  simp [length]

@[simp] theorem startsFraction_lower (text : List Char) :
    startsFraction (lower text) = startsFraction text := by
  cases text with
  | nil => rfl
  | cons c rest =>
    by_cases hc : c = '.'
    · subst hc
      exact startsDigit_lower rest
    · simp [startsFraction, hc]

end Number

/-! ### Comments -/

namespace Comment

variable (d : Dialect)

@[simp] theorem startsSpace_lower (text : List Char) :
    startsSpace (lower text) = startsSpace text := by
  cases text with
  | nil => rfl
  | cons c rest => exact Text.isSpace_toLower c

@[simp] theorem startsLine_lower (text : List Char) :
    startsLine d (lower text) = startsLine d text := by
  cases text with
  | nil => rfl
  | cons c rest => simp [startsLine_cons]

@[simp] theorem startsBlock_lower (text : List Char) :
    startsBlock (lower text) = startsBlock text :=
  Brackets.startsWith_lower ⟨rfl, rfl⟩ text

theorem line?_lower (text : List Char) : line? d (lower text) = line? d text := by
  have hRun : ((lower text).takeWhile (· != '\n')).length = (text.takeWhile (· != '\n')).length :=
    Text.length_takeWhile_lower (fun c => by rw [bne, bne, Text.toLower_beq rfl]) text
  rw [line?, line?, startsLine_lower, hRun]

theorem block?_lower (text : List Char) : block? (lower text) = block? text := by
  simp only [block?, startsBlock_lower, Text.drop_lower, Text.length_lower]
  rw [Brackets.close?_lower ⟨rfl, rfl⟩ ⟨rfl, rfl⟩]

end Comment

/-! ### Literals with an introducer -/

/-- A recogniser that goes ahead by the first two characters, the second of which
is no letter. -/
theorem Recogniser.lower_of_pair {r : Recogniser} (p : Char → Char → Bool)
    (found : Char → List Char → Match) (hOne : ∀ c, r [c] = none)
    (hr : ∀ a b rest, r (a :: b :: rest) = if p a b then some (found b (a :: b :: rest)) else none)
    (hGuard : ∀ a b, p a.toLower b.toLower = p a b)
    (hSecond : ∀ a b, p a b = true → b.isAlpha = false)
    (hFound : ∀ b text, b.isAlpha = false → found b (lower text) = found b text)
    (text : List Char) : r (lower text) = r text := by
  match text with
  | [] => rfl
  | [a] => rw [Text.lower_cons, Text.lower_nil, hOne, hOne]
  | a :: b :: rest =>
    rw [Text.lower_cons, Text.lower_cons, hr, hr, hGuard]
    cases hp : p a b with
    | false => rfl
    | true =>
      have hSign := hSecond a b hp
      have hHere := hFound b (a :: b :: rest) hSign
      rw [Text.lower_cons, Text.lower_cons, Text.toLower_eq_self hSign] at hHere
      rw [if_pos rfl, if_pos rfl, Text.toLower_eq_self hSign, hHere]

namespace Literal

theorem digits?_lower (kind : TokenKind) {isDigit : Char → Bool}
    (hDigit : ∀ c, isDigit c.toLower = isDigit c) (rest : List Char) :
    digits? kind isDigit (lower rest) = digits? kind isDigit rest := by
  rw [digits?, digits?, Text.length_takeWhile_lower hDigit]

theorem radix?_lower (text : List Char) : radix? (lower text) = radix? text := by
  match text with
  | [] => rfl
  | [c] => simp [radix?]
  | c :: b :: rest =>
    by_cases hc : c = '0'
    · subst hc
      have hBits := digits?_lower .bits Text.isBinaryDigit_toLower rest
      have hHex := digits?_lower .number Text.isHexDigit_toLower rest
      simp [radix?, hBits, hHex]
    · simp [radix?, hc]

theorem bits_lower (d : Dialect) {quote : Char} (hQuote : quote.isAlpha = false)
    (text : List Char) : bits d quote (lower text) = bits d quote text := by
  simp only [bits, Text.tail_lower, Quoted.length?_lower hQuote, Text.take_lower, Text.drop_lower,
    Text.all_lower Text.isBinaryDigit_toLower, Text.length_lower]

theorem bits?_lower (d : Dialect) (text : List Char) : bits? d (lower text) = bits? d text := by
  refine Recogniser.lower_of_pair
    (fun a b => a.toLower == 'b' && (b == '\'' || (b == '"' && d.on .doubleQuotedBits)))
    (bits d) (fun _ => rfl) (fun _ _ _ => rfl) ?_ ?_ (fun _ text hb => bits_lower d hb text) text
  · intro a b
    simp
  · intro a b hp
    simp only [Bool.and_eq_true, Bool.or_eq_true, beq_iff_eq] at hp
    rcases hp.2 with rfl | ⟨rfl, _⟩ <;> rfl

theorem hex_lower (text : List Char) : hex (lower text) = hex text := by
  have hQuote : Char.isAlpha '\'' = false := rfl
  simp only [hex, Text.tail_lower, Quoted.length?_lower hQuote, Text.take_lower, Text.drop_lower,
    Text.all_lower Text.isHexDigit_toLower, Text.length_lower]

theorem introduced_lower (introducer : Nat) (escapes : Bool) (text : List Char) :
    introduced introducer escapes (lower text) = introduced introducer escapes text := by
  have hQuote : Char.isAlpha '\'' = false := rfl
  simp only [introduced, Text.drop_lower, Quoted.length?_lower hQuote, Text.length_lower]

/-- A literal after a letter and an apostrophe. -/
theorem lower_of_apostrophe {r : Recogniser} (p : Char → Bool) {found : List Char → Match}
    (hOne : ∀ c, r [c] = none)
    (hr : ∀ a b rest, r (a :: b :: rest) =
      if b == '\'' && p a then some (found (a :: b :: rest)) else none)
    (hp : ∀ a, p a.toLower = p a) (hFound : ∀ text, found (lower text) = found text)
    (text : List Char) : r (lower text) = r text := by
  refine Recogniser.lower_of_pair (fun a b => b == '\'' && p a) (fun _ => found) hOne hr ?_ ?_
    (fun _ text _ => hFound text) text
  · intro a b
    simp [hp]
  · intro a b hPair
    rw [Bool.and_eq_true, beq_iff_eq] at hPair
    rw [hPair.1]
    rfl

theorem hex?_lower (text : List Char) : hex? (lower text) = hex? text := by
  refine lower_of_apostrophe (·.toLower == 'x') (fun _ => rfl) ?_ (by simp) hex_lower text
  intro a b rest
  by_cases hb : b = '\'' <;> simp [hex?, hb]

theorem escape?_lower (text : List Char) : escape? (lower text) = escape? text := by
  refine lower_of_apostrophe (·.toLower == 'e') (fun _ => rfl) ?_ (by simp)
    (introduced_lower 1 true) text
  intro a b rest
  by_cases hb : b = '\'' <;> simp [escape?, hb]

theorem national?_lower (d : Dialect) (text : List Char) :
    national? d (lower text) = national? d text := by
  refine lower_of_apostrophe (fun a => a.toLower == 'n' && d.on .charsetStrings) (fun _ => rfl) ?_
    (by simp) (introduced_lower 1 (d.on .backslashEscapes)) text
  intro a b rest
  by_cases hb : b = '\'' <;> simp [national?, hb]

theorem charset?_lower (d : Dialect) (text : List Char) :
    charset? d (lower text) = charset? d text := by
  cases text with
  | nil => rfl
  | cons c rest =>
    by_cases hc : c = '_'
    · subst hc
      have hName : charsetLength (lower rest) = charsetLength rest :=
        Text.length_takeWhile_lower Text.isAlphanum_toLower rest
      have hString := introduced_lower (charsetLength rest + 1) (d.on .backslashEscapes)
        ('_' :: rest)
      have hQuote : Char.isAlpha '\'' = false := rfl
      have hLine : Char.toLower '_' = '_' := rfl
      rw [Text.lower_cons, hLine] at hString ⊢
      rw [charset?_eq, charset?_eq, hName, Text.drop_lower, Text.head?_lower_beq hQuote, hString]
    · simp [charset?, hc]

/-- A tag of a dollar quote is repeated letter by letter, so that dollar quotes have
to be off. -/
theorem dollar?_eq_none {d : Dialect} (h : d.on .dollarQuotes = false) (text : List Char) :
    dollar? d text = none := by
  unfold dollar?
  split
  · simp [h]
  · rfl

end Literal

/-- What is tried in order finds the same if each part does. -/
theorem Recogniser.firstOf_lower {forms : List Recogniser} {text : List Char}
    (h : ∀ r ∈ forms, r (lower text) = r text) :
    firstOf forms (lower text) = firstOf forms text := by
  induction forms with
  | nil => rfl
  | cons r forms ih =>
    rw [List.forall_mem_cons] at h
    rw [firstOf, List.findSome?_cons, h.1, ← firstOf, ih h.2, firstOf, firstOf,
      List.findSome?_cons]

theorem Literal.match?_lower {d : Dialect} (hDollar : d.on .dollarQuotes = false)
    (text : List Char) : Literal.match? d (lower text) = Literal.match? d text := by
  apply Recogniser.firstOf_lower
  simp only [forms, List.forall_mem_cons, List.not_mem_nil, false_imp_iff, implies_true, and_true]
  exact ⟨radix?_lower text, bits?_lower d text, hex?_lower text, escape?_lower text,
    national?_lower d text, charset?_lower d text, by
      rw [dollar?_eq_none hDollar, dollar?_eq_none hDollar]⟩

/-! ### Placeholders -/

namespace Placeholder

@[simp] theorem startsOpen_lower (text : List Char) : startsOpen (lower text) = startsOpen text :=
  Brackets.startsWith_lower ⟨rfl, rfl⟩ text

@[simp] theorem startsClose_lower (text : List Char) :
    startsClose (lower text) = startsClose text :=
  Brackets.startsWith_lower ⟨rfl, rfl⟩ text

@[simp] theorem pathLength_lower (text : List Char) :
    pathLength (lower text) = pathLength text := by
  induction text with
  | nil => rfl
  | cons c rest ih => simp [pathLength, ih]

theorem expression_lower (d : Dialect) (text : List Char) :
    expression d (lower text) = expression d text := by
  cases text with
  | nil => rfl
  | cons c rest =>
    by_cases hQuote : c = '\'' ∨ c = '"'
    · have hSign : c.isAlpha = false := by
        rcases hQuote with rfl | rfl <;> rfl
      have hRun := Quoted.length?_lower hSign (d.on .backslashEscapes) (c :: rest)
      rw [Text.lower_cons, Text.toLower_eq_self hSign] at hRun
      simp only [Text.lower_cons, expression, Text.toLower_eq_self hSign, hRun]
      simp [hQuote]
    · rw [not_or] at hQuote
      have hNumber := Number.length_lower (c :: rest)
      have hPath := pathLength_lower (c :: rest)
      rw [Text.lower_cons] at hNumber hPath
      simp [expression, hQuote, hNumber, hPath]

theorem recover_lower (text : List Char) (start : Nat) (fault unclosed : Fault) :
    recover (lower text) start fault unclosed = recover text start fault unclosed := by
  have hBraces : ∀ x ∈ ['}', '}'], x.isAlpha = false :=
    List.forall_mem_cons.2 ⟨rfl, List.forall_mem_singleton.2 rfl⟩
  rw [recover, Text.drop_lower, Text.indexOf?_lower hBraces, Text.length_lower, recover]

theorem recoverNested_lower (text : List Char) (start : Nat) :
    recoverNested (lower text) start = recoverNested text start := by
  rw [recoverNested, Text.drop_lower, Brackets.close?_lower ⟨rfl, rfl⟩ ⟨rfl, rfl⟩,
    Text.length_lower, recoverNested]

theorem scan_lower (d : Dialect) (text : List Char) : scan d (lower text) = scan d text := by
  simp only [scan, Text.drop_lower, Text.spaceRun_lower, startsOpen_lower, expression_lower,
    startsClose_lower, recover_lower, recoverNested_lower]

theorem match?_lower (d : Dialect) (text : List Char) : match? d (lower text) = match? d text := by
  rw [match?, match?, startsOpen_lower, scan_lower]

theorem unmatchedClose?_lower (text : List Char) :
    unmatchedClose? (lower text) = unmatchedClose? text := by
  rw [unmatchedClose?, unmatchedClose?, startsClose_lower]

end Placeholder

/-! ### Plain lexemes -/

theorem Text.isAlphabetic_of_isAlpha {c : Char} (h : c.isAlpha = true) :
    isAlphabetic c = true := by
  have hLast : c.toNat ≤ 0x7A := by
    rcases Bool.or_eq_true_iff.1 h with hUpper | hLower
    · have hBound : c.toNat ≤ 0x5A := (of_decide_eq_true hUpper).2
      omega
    · exact of_decide_eq_true (Bool.and_eq_true_iff.1 hLower).2
  rw [isAlphabetic_of_ascii (by omega), h]

/-- Every letter has a meaning in every dialect. -/
theorem Dialect.isReserved_of_isAlpha {c : Char} (h : c.isAlpha = true) : isReserved c = true := by
  simp [isReserved, Text.isAlphanumeric, Text.isAlphabetic_of_isAlpha h]

/-- A set of characters that are free for the dialect to use holds no letter. -/
theorem Dialect.contains_toLower {chars : List Char} (h : ∀ c ∈ chars, isReserved c = false)
    (c : Char) : chars.contains c.toLower = chars.contains c := by
  have hLetter : ∀ x : Char, x.isAlpha = true → chars.contains x = false := by
    intro x hx
    rw [← Bool.not_eq_true, List.contains_iff_mem]
    intro hMem
    have hFree := h x hMem
    rw [isReserved_of_isAlpha hx] at hFree
    cases hFree
  by_cases hc : c.toLower = c
  · rw [hc]
  · obtain ⟨hCapital, hSmall⟩ := Text.isAlpha_of_toLower_ne hc
    rw [hLetter c hCapital, hLetter c.toLower hSmall]

namespace Dialect.Valid

variable {d : Dialect} (hd : d.Valid)

include hd

theorem isAlpha_of_isIdentifierQuote {c : Char} (h : d.isIdentifierQuote c = true) :
    c.isAlpha = false := by
  rw [← Bool.not_eq_true]
  intro hAlpha
  rw [hd.not_identifierQuote (isReserved_of_isAlpha hAlpha)] at h
  cases h

theorem isIdentifierQuote_toLower (c : Char) :
    d.isIdentifierQuote c.toLower = d.isIdentifierQuote c :=
  contains_toLower hd.quote_free c

theorem isVariableChar_toLower (c : Char) : d.isVariableChar c.toLower = d.isVariableChar c :=
  contains_toLower hd.variable_free c

theorem isOperatorChar_toLower (c : Char) : d.isOperatorChar c.toLower = d.isOperatorChar c :=
  contains_toLower hd.operator_free c

end Dialect.Valid

namespace Symbol

variable {d : Dialect}

theorem whitespace?_lower (text : List Char) : whitespace? (lower text) = whitespace? text := by
  cases text with
  | nil => rfl
  | cons c rest =>
    have hRun := Text.spaceRun_lower (c :: rest)
    rw [Text.lower_cons] at hRun
    simp only [Text.lower_cons, whitespace?, Text.isSpace_toLower, hRun]

theorem delimited_lower {quote : Char} (hQuote : quote.isAlpha = false) (escapes : Bool)
    (kind : TokenKind) (unclosed : Fault) (text : List Char) :
    delimited quote escapes kind unclosed (lower text) =
      delimited quote escapes kind unclosed text := by
  rw [delimited, Quoted.length?_lower hQuote, Text.length_lower, delimited]

theorem string?_lower (d : Dialect) (text : List Char) :
    string? d (lower text) = string? d text := by
  cases text with
  | nil => rfl
  | cons c rest =>
    by_cases hc : c = '"'
    · subst hc
      have hSign : Char.isAlpha '"' = false := rfl
      have hQuote : Char.toLower '"' = '"' := rfl
      have hRun := delimited_lower hSign (d.on .backslashEscapes) .string .unterminatedString
        ('"' :: rest)
      rw [Text.lower_cons, hQuote] at hRun ⊢
      rw [string?, string?, hRun]
    · simp [string?, hc]

theorem quotedIdentifier?_lower (hd : d.Valid) (text : List Char) :
    quotedIdentifier? d (lower text) = quotedIdentifier? d text := by
  cases text with
  | nil => rfl
  | cons c rest =>
    rw [Text.lower_cons, quotedIdentifier?, quotedIdentifier?, hd.isIdentifierQuote_toLower]
    cases hc : d.isIdentifierQuote c with
    | false => rfl
    | true =>
      have hSign := hd.isAlpha_of_isIdentifierQuote hc
      have hRun := delimited_lower hSign false .quotedIdentifier .unterminatedQuotedIdentifier
        (c :: rest)
      rw [Text.lower_cons, Text.toLower_eq_self hSign] at hRun
      rw [Text.toLower_eq_self hSign, hRun]

theorem number?_lower (before : Option TokenKind) (text : List Char) :
    number? before (lower text) = number? before text := by
  simp only [number?, Number.startsDigit_lower, Number.startsFraction_lower, Number.length_lower]

@[simp] theorem sigilLength_lower (text : List Char) :
    sigilLength (lower text) = sigilLength text := by
  match text with
  | [] => rfl
  | [c] => simp [sigilLength]
  | c :: b :: rest => simp [sigilLength_cons]

@[simp] theorem variableNameLength_lower (text : List Char) :
    variableNameLength (lower text) = variableNameLength text := by
  cases text with
  | nil => rfl
  | cons c rest =>
    by_cases hQuote : (c == '\'' || c == '"' || c == '\x60') = true
    · have hSign : c.isAlpha = false := by
        simp only [Bool.or_eq_true, beq_iff_eq] at hQuote
        rcases hQuote with (rfl | rfl) | rfl <;> rfl
      have hRun := Quoted.length?_lower hSign false (c :: rest)
      rw [Text.lower_cons, Text.toLower_eq_self hSign] at hRun ⊢
      rw [variableNameLength, if_pos hQuote, hRun, variableNameLength, if_pos hQuote]
    · have hLower : ¬(c.toLower == '\'' || c.toLower == '"' || c.toLower == '\x60') = true := by
        simpa using hQuote
      rw [Text.lower_cons, variableNameLength, if_neg hLower, ← Text.lower_cons,
        Text.wordRun_lower, variableNameLength, if_neg hQuote]

theorem specialVariable?_lower (hd : d.Valid) (text : List Char) :
    specialVariable? d (lower text) = specialVariable? d text := by
  cases text with
  | nil => rfl
  | cons c rest =>
    have hSigils := sigilLength_lower (c :: rest)
    have hName := variableNameLength_lower ((c :: rest).drop (sigilLength (c :: rest)))
    rw [← Text.drop_lower] at hName
    rw [Text.lower_cons] at hSigils hName ⊢
    simp only [specialVariable?, hd.isVariableChar_toLower, hSigils, hName]

theorem punctuation?_lower (text : List Char) : punctuation? (lower text) = punctuation? text := by
  cases text with
  | nil => rfl
  | cons c rest =>
    have hKind : punctuationKind? c.toLower = punctuationKind? c :=
      Text.apply_toLower (by decide) c
    rw [Text.lower_cons, punctuation?, hKind, punctuation?]

theorem operatorRun_lower (hd : d.Valid) (text : List Char) :
    operatorRun d (lower text) = operatorRun d text := by
  induction text with
  | nil => rfl
  | cons c rest ih =>
    rw [Text.lower_cons, operatorRun, hd.isOperatorChar_toLower, ← Text.lower_cons,
      Comment.startsLine_lower, Comment.startsBlock_lower, ih, operatorRun]

theorem operator?_lower (hd : d.Valid) (text : List Char) :
    operator? d (lower text) = operator? d text := by
  cases text with
  | nil => rfl
  | cons c rest =>
    rw [Text.lower_cons, operator?, hd.isOperatorChar_toLower, operatorRun_lower hd, operator?]

theorem wordKindAt_lower (d : Dialect) (before : Option TokenKind) (text : List Char) :
    wordKindAt d before (lower text) = wordKindAt d before text := by
  have hDot : Char.isAlpha '.' = false := rfl
  rw [wordKindAt, Text.wordRun_lower, Text.drop_lower, Text.head?_lower_beq hDot, Text.take_lower,
    Dialect.wordKind_lower, wordKindAt]

theorem word?_lower (d : Dialect) (before : Option TokenKind) (text : List Char) :
    word? d before (lower text) = word? d before text := by
  cases text with
  | nil => rfl
  | cons c rest =>
    have hKind := wordKindAt_lower d before (c :: rest)
    have hRun := Text.wordRun_lower (c :: rest)
    rw [Text.lower_cons] at hKind hRun ⊢
    simp only [word?, Text.isWordStart_toLower, hKind, hRun]

end Symbol

/-! ### Strings and quoted regions -/

theorem QuotePlan.ofText_lower (escapes : Bool) (text : List Char) :
    ofText escapes (lower text) = ofText escapes text := by
  fun_induction ofText escapes text with
  | case1 => rfl
  | case8 c rest hEscape hQuote hBrace ih =>
    rw [Text.lower_cons, ofText_cons, Text.toLower_beq rfl, if_neg hEscape, Text.toLower_beq rfl,
      if_neg hQuote, Text.toLower_beq rfl, Text.head?_lower_beq rfl, if_neg hBrace, ih]
  | _ => simp_all [ofText_cons]

namespace Region

variable (d : Dialect)

theorem apostrophe?_lower (text : List Char) : apostrophe? d (lower text) = apostrophe? d text := by
  cases text with
  | nil => rfl
  | cons c rest =>
    by_cases hc : c = '\''
    · subst hc
      have hQuote : Char.toLower '\'' = '\'' := rfl
      rw [Text.lower_cons, hQuote, apostrophe?, QuotePlan.ofText_lower, Text.length_lower,
        apostrophe?]
    · simp [apostrophe?, hc]

theorem placeholder?_lower (count : Nat) (text : List Char) :
    placeholder? d count (lower text) = placeholder? d count text := by
  rw [placeholder?, Placeholder.match?_lower, placeholder?]

theorem close?_lower (count : Nat) (text : List Char) :
    close? count (lower text) = close? count text := by
  cases text with
  | nil => rfl
  | cons c rest =>
    by_cases hc : c = '\''
    · subst hc
      have hQuote : Char.toLower '\'' = '\'' := rfl
      have hSign : Char.isAlpha '\'' = false := rfl
      rw [Text.lower_cons, hQuote, close?, Text.head?_lower_beq hSign, close?]
    · simp [close?, hc]

theorem contentLength_lower (escapes : Bool) (count : Nat) (text : List Char) :
    contentLength escapes count (lower text) = contentLength escapes count text := by
  fun_induction contentLength escapes count text with
  | case1 => rfl
  | case7 c rest hQuote hEscape hEnd =>
    rw [Text.lower_cons, contentLength_cons, Text.toLower_beq rfl, if_neg hQuote,
      Text.toLower_beq rfl, if_neg hEscape, Text.isSpace_toLower, ← Text.lower_cons,
      Placeholder.startsOpen_lower, if_pos hEnd]
  | case8 c rest hQuote hEscape hEnd ih =>
    rw [Text.lower_cons, contentLength_cons, Text.toLower_beq rfl, if_neg hQuote,
      Text.toLower_beq rfl, if_neg hEscape, Text.isSpace_toLower, ← Text.lower_cons,
      Placeholder.startsOpen_lower, if_neg hEnd, ih]
  | _ => simp_all [contentLength_cons]

theorem next_lower (count : Nat) (text : List Char) :
    next d count (lower text) = next d count text := by
  have hForms : ∀ r ∈ [Symbol.whitespace?, placeholder? d count, close? count],
      r (lower text) = r text := by
    simp only [List.forall_mem_cons, List.not_mem_nil, false_imp_iff, implies_true, and_true]
    exact ⟨Symbol.whitespace?_lower text, placeholder?_lower d count text, close?_lower count text⟩
  rw [next, Recogniser.firstOf_lower hForms, contentLength_lower, next]

end Region

/-! ### Lexemes and tokens -/

namespace Lexeme

variable {d : Dialect}

/-- **Every form of lexeme is recognised in either case.** -/
theorem Form.recogniser_lower (hd : d.Valid) (hDollar : d.on .dollarQuotes = false)
    (before : Option TokenKind) (f : Form) (text : List Char) :
    f.recogniser d before (Text.lower text) = f.recogniser d before text := by
  cases f with
  | whitespace => exact Symbol.whitespace?_lower text
  | placeholder => exact Placeholder.match?_lower d text
  | unmatchedClose => exact Placeholder.unmatchedClose?_lower text
  | apostrophe => exact Region.apostrophe?_lower d text
  | literal => exact Literal.match?_lower hDollar text
  | lineComment => exact Comment.line?_lower d text
  | blockComment => exact Comment.block?_lower text
  | doubleQuoted => exact Symbol.string?_lower d text
  | quotedIdentifier => exact Symbol.quotedIdentifier?_lower hd text
  | number => exact Symbol.number?_lower before text
  | specialVariable => exact Symbol.specialVariable?_lower hd text
  | punctuation => exact Symbol.punctuation?_lower text
  | operator => exact Symbol.operator?_lower hd text
  | word => exact Symbol.word?_lower d before text

theorem next_lower (hd : d.Valid) (hDollar : d.on .dollarQuotes = false)
    (before : Option TokenKind) (text : List Char) :
    next d before (Text.lower text) = next d before text := by
  have hForms : ∀ r ∈ forms d before, r (Text.lower text) = r text := by
    rw [Form.forms_eq, List.forall_mem_map]
    exact fun f _ => f.recogniser_lower hd hDollar before text
  rw [next, Recogniser.firstOf_lower hForms, next]

/-- The lexeme in small letters. -/
def lower (x : Lexeme) : Lexeme := ⟨Text.lower x.text, x.verdict⟩

@[simp] theorem lower_kind (x : Lexeme) : x.lower.kind = x.kind := rfl

end Lexeme

theorem Match.lexeme_lower (m : Match) (text : List Char) :
    m.lexeme (lower text) = (m.lexeme text).lower := by
  rw [Match.lexeme, Text.take_lower]
  rfl

/-- The lexemes of a quoted region are the same up to case. -/
theorem Region.scan_lower (d : Dialect) (count : Nat) (text : List Char) :
    scan d count (lower text) =
      ⟨(scan d count text).lexemes.map Lexeme.lower, (scan d count text).after.map lower⟩ := by
  fun_induction scan d count text with
  | case1 count =>
    rw [Text.lower_nil, scan]
    rfl
  | case2 count c rest m remaining hClose =>
    have hNext : next d count (lower (c :: rest)) = m := next_lower d count (c :: rest)
    have hLexeme := m.lexeme_lower (c :: rest)
    have hAfter : (lower (c :: rest)).drop m.length = lower remaining := Text.drop_lower _ _
    rw [Text.lower_cons] at hNext hLexeme hAfter ⊢
    rw [scan]
    simp only [hNext, hClose, if_true, hLexeme, hAfter]
    rfl
  | case3 count c rest m remaining hInner region ih =>
    have hNext : next d count (lower (c :: rest)) = m := next_lower d count (c :: rest)
    have hText : lower (c :: rest) ≠ [] := List.cons_ne_nil _ _
    simp only [dite_eq_ite, remaining] at ih
    rw [scan_of_inner hText (by rw [hNext]; exact hInner), hNext, m.lexeme_lower, Text.drop_lower,
      Placeholder.startsOpen_lower, ih]
    rfl

theorem Lexeme.settled_lower (between : Bool) (x : Lexeme) :
    x.lower.settled between = (x.settled between).lower := by
  unfold settled
  rw [lower_kind]
  split <;> rfl

theorem settleDots_lower (before : Option TokenKind) (xs : List Lexeme) :
    settleDots before (xs.map Lexeme.lower) = (settleDots before xs).map Lexeme.lower := by
  induction xs generalizing before with
  | nil => rfl
  | cons x xs ih =>
    have hHead : (xs.map Lexeme.lower).head?.any (·.kind.isNamePart) =
        xs.head?.any (·.kind.isNamePart) := by
      cases xs <;> rfl
    rw [List.map_cons, settleDots, settleDots, List.map_cons, hHead, Lexeme.lower_kind, ih,
      Lexeme.settled_lower]

theorem placed_lower (p : Position) (xs : List Lexeme) :
    placed p (xs.map Lexeme.lower) = placed p xs := by
  induction xs generalizing p with
  | nil => rfl
  | cons x xs ih =>
    rw [List.map_cons, placed, placed, ih]
    simp [Lexeme.lower, Span.ofText]

section Reading

variable {d : Dialect} (hd : d.Valid) (hDollar : d.on .dollarQuotes = false)

include hd hDollar

/-- **The lexemes of a text are the same up to case.** -/
theorem lexemes_lower (text : List Char) :
    ∀ before : Option TokenKind,
      lexemes d before (lower text) = (lexemes d before text).map Lexeme.lower := by
  induction hLength : text.length using Nat.strongRecOn generalizing text with
  | ind k ih =>
    subst hLength
    intro before
    by_cases hText : text = []
    · subst hText
      rw [Text.lower_nil, lexemes]
      rfl
    · have hNext := Lexeme.next_lower hd hDollar before text
      by_cases hQuote : (Lexeme.next d before text).verdict = accept .regionQuote
      · obtain ⟨rest, rfl, _⟩ := Lexeme.next_eq_regionQuote hQuote
        have hApostrophe : lower ('\'' :: rest) = '\'' :: lower rest := rfl
        have hRegion := Region.scan_lower d 0 rest
        rw [hApostrophe] at hNext ⊢
        cases hAfter : (Region.scan d 0 rest).after with
        | none =>
          rw [lexemes_of_open (by rw [hNext]; exact hQuote) (by rw [hRegion, hAfter]; rfl),
            lexemes_of_open hQuote hAfter, hRegion]
          rfl
        | some after =>
          have hShort := Region.length_after_lt hAfter
          rw [lexemes_of_closed (by rw [hNext]; exact hQuote) (by rw [hRegion, hAfter]; rfl),
            lexemes_of_closed hQuote hAfter, hRegion,
            ih after.length (Nat.lt_succ_of_lt hShort) after rfl, List.map_cons, List.map_append]
          rfl
      · have hLower : lower text ≠ [] := mt Text.lower_eq_nil_iff.1 hText
        have hPos := Lexeme.next_pos d before text
        have hShort : (text.drop (Lexeme.next d before text).length).length < text.length := by
          have := List.length_pos_iff.2 hText
          rw [List.length_drop]
          omega
        rw [lexemes_of_plain hLower (by rw [hNext]; exact hQuote), lexemes_of_plain hText hQuote,
          hNext, Match.lexeme_lower, Text.drop_lower, ih _ hShort _ rfl, List.map_cons]

theorem scan_lower (source : List Char) : d.scan (lower source) = d.scan source := by
  rw [scan_eq, scan_eq, settledLexemes, lexemes_lower hd hDollar, settleDots_lower, tokensAt,
    diagnosticsAt, placed_lower]
  rfl

end Reading

/-- **Case makes no difference.**  Two texts that are the same but for the case of
the letters `A` to `Z` have the same tokens and the same diagnostics, in the same
places, in every valid dialect without dollar quotes. -/
theorem scan_ignores_case (d : Dialect) (hd : d.Valid) (hDollar : d.on .dollarQuotes = false)
    (source source' : List Char) (hSame : source.map Char.toLower = source'.map Char.toLower) :
    d.scan source = d.scan source' := by
  have hLower : lower source = lower source' := hSame
  rw [← scan_lower hd hDollar source, hLower, scan_lower hd hDollar source']

/-- Words, literals, numbers and placeholders in two cases. -/
theorem scan_ignores_case_mysql :
    Preset.mysql.rules.on .dollarQuotes = false ∧
      "aS 0B1, X'aF', 1E2, _Utf8'a' \x7b\x7b B.c \x7d\x7d".toList.map Char.toLower =
        "As 0b1, x'Af', 1e2, _uTF8'A' \x7b\x7b b.C \x7d\x7d".toList.map Char.toLower ∧
      Preset.mysql.rules.scan "aS 0B1, X'aF', 1E2, _Utf8'a' \x7b\x7b B.c \x7d\x7d".toList =
        Preset.mysql.rules.scan "As 0b1, x'Af', 1e2, _uTF8'A' \x7b\x7b b.C \x7d\x7d".toList := by
  have hSame : "aS 0B1, X'aF', 1E2, _Utf8'a' \x7b\x7b B.c \x7d\x7d".toList.map Char.toLower =
      "As 0b1, x'Af', 1e2, _uTF8'A' \x7b\x7b b.C \x7d\x7d".toList.map Char.toLower := by
    decide +kernel
  exact ⟨rfl, hSame, scan_ignores_case Preset.mysql.rules (Preset.rules_valid .mysql) rfl _ _ hSame⟩

/-- The tags of dollar quotes are told apart by case. -/
example : (Preset.postgresql.rules.scan "$a$$a$".toList).hasErrors = false ∧
    (Preset.postgresql.rules.scan "$a$$A$".toList).hasErrors = true := by
  decide +kernel

end SqlTemplate
