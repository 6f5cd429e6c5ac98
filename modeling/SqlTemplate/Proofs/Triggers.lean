import SqlTemplate.Dialect.Draft
import SqlTemplate.Proofs.Classification

/-!
# Switches and their triggers

A dialect has nine switches, and reading asks for each of them only where a trigger of it
stands: for dollar quotes at a dollar, for slash comments at two slashes, for bytes at a
`b` before a quote.

* `Switch.triggers`: the triggers.
* `Dialect.AgreeAt`: two dialects agree on all switches for which a text asks, up to bits
  and bytes.  Every recogniser then answers alike; escapes are asked for throughout quoted
  text, but without a backslash they make no difference (`Quoted.closing?_of_not_mem`).
* `lexemes_relabel`: two dialects whose steps are the same up to a change of the verdict on
  quoted bits read a whole text in lockstep.
* `scan_of_not_triggered`: so a switch without a trigger makes no difference to a scan.
-/

namespace SqlTemplate

open Verdict (accept reject)

namespace Switch

/-- The texts at which reading asks for the switch. -/
def triggers : Switch → List (List Char)
  | bitsAsBytes => [['b', '\''], ['b', '"'], ['B', '\''], ['B', '"']]
  | doubleQuotedBits => [['"']]
  | dollarQuotes => [['$']]
  | backslashEscapes => [['\\']]
  | hashComments => [['#']]
  | slashComments => [['/', '/']]
  | spaceAfterDashes => [['-', '-']]
  | doubleQuotedStrings => [['"']]
  | charsetStrings => [['\'']]

/-- A trigger of the switch stands somewhere in the text. -/
def Triggered (s : Switch) (text : List Char) : Prop := ∃ t ∈ s.triggers, t <:+: text

instance (s : Switch) (text : List Char) : Decidable (s.Triggered text) :=
  inferInstanceAs (Decidable (∃ t ∈ s.triggers, t <:+: text))

theorem Triggered.mono {s : Switch} {text text' : List Char} (h : s.Triggered text)
    (hText : text <:+: text') : s.Triggered text' := by
  obtain ⟨t, ht, hInfix⟩ := h
  exact ⟨t, ht, hInfix.trans hText⟩

theorem triggered_of_mem {s : Switch} {c : Char} {text : List Char} (hs : [c] ∈ s.triggers)
    (hc : c ∈ text) : s.Triggered text := by
  obtain ⟨before, after, rfl⟩ := List.append_of_mem hc
  exact ⟨[c], hs, before, after, by simp⟩

theorem triggered_of_pair {s : Switch} {a b : Char} {rest : List Char} (hs : [a, b] ∈ s.triggers) :
    s.Triggered (a :: b :: rest) :=
  ⟨[a, b], hs, (List.prefix_append [a, b] rest).isInfix⟩

end Switch

/-- Two dialects with the same tables and the same characters, which agree on these
switches. -/
structure Dialect.Agree (asked : Switch → Prop) (d d' : Dialect) : Prop where
  keywords : d.keywords = d'.keywords
  typeNames : d.typeNames = d'.typeNames
  identifierQuotes : d.identifierQuotes = d'.identifierQuotes
  operatorChars : d.operatorChars = d'.operatorChars
  variableChars : d.variableChars = d'.variableChars
  on : ∀ s, asked s → d.on s = d'.on s

/-- The dialects agree wherever the text asks for a switch; whether it is bits or bytes
that stand between the quotes is left open. -/
def Dialect.AgreeAt (text : List Char) : Dialect → Dialect → Prop :=
  Dialect.Agree fun s => s ≠ .bitsAsBytes ∧ s.Triggered text

variable {d d' : Dialect} {text : List Char}

namespace Dialect

theorem Agree.mono {p q : Switch → Prop} (h : d.Agree p d') (hq : ∀ s, q s → p s) :
    d.Agree q d' :=
  { h with on := fun s hs => h.on s (hq s hs) }

namespace AgreeAt

theorem suffix {rest : List Char} (h : d.AgreeAt text d') (hRest : rest <:+ text) :
    d.AgreeAt rest d' :=
  h.mono fun _ hs => ⟨hs.1, hs.2.mono hRest.isInfix⟩

theorem drop (h : d.AgreeAt text d') (n : Nat) : d.AgreeAt (text.drop n) d' :=
  h.suffix (List.drop_suffix n text)

theorem on_of_mem (h : d.AgreeAt text d') {s : Switch} {c : Char} (hs : s ≠ .bitsAsBytes)
    (hTrigger : [c] ∈ s.triggers) (hc : c ∈ text) : d.on s = d'.on s :=
  h.on s ⟨hs, Switch.triggered_of_mem hTrigger hc⟩

/-- What escapes change only where there is a backslash, they do not change between the
dialects. -/
theorem escapes {α : Type} (h : d.AgreeAt text d') {f : Bool → α}
    (hf : '\\' ∉ text → ∀ escapes, f escapes = f false) :
    f (d.on .backslashEscapes) = f (d'.on .backslashEscapes) := by
  by_cases hSlash : '\\' ∈ text
  · rw [h.on_of_mem (by decide) List.mem_cons_self hSlash]
  · rw [hf hSlash, hf hSlash (d'.on .backslashEscapes)]

end AgreeAt

end Dialect

/-! ### Quoted runs, strings and regions without backslashes -/

theorem Quoted.closing?_of_not_mem {quote : Char} (h : '\\' ∉ text) (escapes : Bool) :
    closing? quote escapes text = closing? quote false text := by
  fun_induction closing? quote escapes text with
  | case7 c rest hEscape hQuote ih =>
    rw [List.mem_cons, not_or] at h
    rw [closing?_plain (fun hOn => by cases hOn) (by simpa using hQuote), ih h.2]
  | _ => simp_all [closing?]

theorem Quoted.length?_of_not_mem {quote : Char} (h : '\\' ∉ text) (escapes : Bool) :
    length? quote escapes text = length? quote false text := by
  rw [length?, closing?_of_not_mem (fun hTail => h (List.mem_of_mem_tail hTail)), length?]

theorem QuotePlan.ofText_of_not_mem (h : '\\' ∉ text) (escapes : Bool) :
    ofText escapes text = ofText false text := by
  fun_induction ofText escapes text with
  | case1 => rfl
  | _ => simp_all [ofText_cons]

theorem Region.contentLength_of_not_mem {count : Nat} (h : '\\' ∉ text) (escapes : Bool) :
    contentLength escapes count text = contentLength false count text := by
  fun_induction contentLength escapes count text with
  | case1 => rfl
  | _ => simp_all [contentLength_cons]

/-! ### Literals with an introducer -/

namespace Literal

theorem introduced_agree (h : d.AgreeAt text d') (introducer : Nat) :
    introduced introducer (d.on .backslashEscapes) text =
      introduced introducer (d'.on .backslashEscapes) text := by
  refine h.escapes (f := fun e => introduced introducer e text) fun hNone escapes => ?_
  have hRest : '\\' ∉ text.drop introducer := fun hMem => hNone (List.mem_of_mem_drop hMem)
  simp only [introduced, Quoted.length?_of_not_mem hRest escapes]

/-- Whether the text starts with the letter of bits and a quote. -/
def startsBits : List Char → Bool
  | c :: quote :: _ => c.toLower == 'b' && (quote == '\'' || quote == '"')
  | _ => false

theorem triggered_of_startsBits (h : startsBits text = true) :
    Switch.bitsAsBytes.Triggered text := by
  unfold startsBits at h
  split at h
  · next c quote rest =>
    simp only [Bool.and_eq_true, Bool.or_eq_true, beq_iff_eq] at h
    have hLetter : c = 'b' ∨ c = 'B' := by
      by_cases hc : c.toLower = c
      · exact Or.inl (hc.symm.trans h.1)
      · have hFacts : (Text.capitals.all fun x => decide (x.toLower = 'b' → x = 'B')) = true := by
          decide
        have hCapital := Text.mem_capitals_of_toLower_ne hc
        exact Or.inr (of_decide_eq_true (List.all_eq_true.1 hFacts c hCapital) h.1)
    refine Switch.triggered_of_pair ?_
    rcases hLetter with rfl | rfl <;> rcases h.2 with rfl | rfl <;> decide
  · cases h

theorem bits?_eq_none (h : startsBits text = false) : bits? d text = none := by
  unfold bits?
  split
  · simp_all [startsBits]
  · rfl

/-- **Whether there are bits at the head of a text** does not depend on how they are
read. -/
theorem bits?_agree_cases (h : d.AgreeAt text d') :
    bits? d text = none ∧ bits? d' text = none ∨
      ∃ quote, startsBits text = true ∧ bits? d text = some (bits d quote text) ∧
        bits? d' text = some (bits d' quote text) := by
  cases hStart : startsBits text with
  | false => exact Or.inl ⟨bits?_eq_none hStart, bits?_eq_none hStart⟩
  | true =>
    match text with
    | [] => cases hStart
    | [_] => cases hStart
    | c :: quote :: rest =>
      have hGuard : (c.toLower == 'b' && (quote == '\'' || (quote == '"' &&
          d.on .doubleQuotedBits))) = (c.toLower == 'b' && (quote == '\'' || (quote == '"' &&
            d'.on .doubleQuotedBits))) := by
        by_cases hQuote : quote = '"'
        · subst hQuote
          rw [h.on_of_mem (s := .doubleQuotedBits) (c := '"') (by decide) (by decide) (by simp)]
        · have hOther : (quote == '"') = false := by simpa using hQuote
          rw [hOther, Bool.false_and, Bool.false_and]
      rw [bits?, bits?, ← hGuard]
      split
      · exact Or.inr ⟨quote, rfl, rfl, rfl⟩
      · exact Or.inl ⟨rfl, rfl⟩

theorem bits?_agree (h : d.AgreeAt text d')
    (hBytes : startsBits text = true → d.on .bitsAsBytes = d'.on .bitsAsBytes) :
    bits? d text = bits? d' text := by
  rcases bits?_agree_cases h with ⟨hLeft, hRight⟩ | ⟨quote, hStart, hLeft, hRight⟩
  · rw [hLeft, hRight]
  · -- bits ask for escapes only where they are bytes, and then only a backslash matters
    have hRun : Quoted.length? quote (d.on .bitsAsBytes && d.on .backslashEscapes) text.tail =
        Quoted.length? quote (d.on .bitsAsBytes && d'.on .backslashEscapes) text.tail := by
      refine h.escapes (f := fun e => Quoted.length? quote (d.on .bitsAsBytes && e) text.tail)
        fun hNone escapes => ?_
      have hRest : '\\' ∉ text.tail := fun hMem => hNone (List.mem_of_mem_tail hMem)
      rw [Quoted.length?_of_not_mem hRest, ← Quoted.length?_of_not_mem hRest
        (d.on .bitsAsBytes && false)]
    rw [hLeft, hRight, bits, bits, hRun, hBytes hStart]

theorem national?_agree (h : d.AgreeAt text d') : national? d text = national? d' text := by
  unfold national?
  split
  · next c rest =>
    rw [h.on_of_mem (s := .charsetStrings) (c := '\'') (by decide) (by decide) (by simp),
      introduced_agree h]
  · rfl

theorem charset?_agree (h : d.AgreeAt text d') : charset? d text = charset? d' text := by
  cases text with
  | nil => rfl
  | cons c rest =>
    by_cases hLine : c = '_'
    · subst hLine
      rw [charset?_eq, charset?_eq, introduced_agree h]
      by_cases hHead : (rest.drop (charsetLength rest)).head? = some '\''
      · have hMem : '\'' ∈ '_' :: rest :=
          List.mem_cons_of_mem _ (List.mem_of_mem_drop (List.mem_of_mem_head? hHead))
        rw [h.on_of_mem (s := .charsetStrings) (by decide) (by decide) hMem]
      · have hOther : ((rest.drop (charsetLength rest)).head? == some '\'') = false := by
          simpa using hHead
        rw [hOther, Bool.and_false, Bool.and_false]
    · simp [charset?, hLine]

theorem dollar?_agree (h : d.AgreeAt text d') : dollar? d text = dollar? d' text := by
  unfold dollar?
  split
  · rw [h.on_of_mem (s := .dollarQuotes) (c := '$') (by decide) (by decide) (by simp)]
  · rfl

/-- Literals other than quoted bits. -/
theorem match?_agree (h : d.AgreeAt text d') (hBits : bits? d text = bits? d' text) :
    match? d text = match? d' text := by
  simp only [match?, Recogniser.firstOf, forms, List.findSome?_cons, hBits, national?_agree h,
    charset?_agree h, dollar?_agree h]

end Literal

/-! ### Placeholders -/

namespace Placeholder

theorem expression_agree (h : d.AgreeAt text d') : expression d text = expression d' text := by
  cases text with
  | nil => rfl
  | cons c rest =>
    have hRun : Quoted.length? c (d.on .backslashEscapes) (c :: rest) =
        Quoted.length? c (d'.on .backslashEscapes) (c :: rest) :=
      h.escapes (f := fun e => Quoted.length? c e (c :: rest)) Quoted.length?_of_not_mem
    rw [expression, hRun, expression]

theorem scan_agree (h : d.AgreeAt text d') : scan d text = scan d' text := by
  rw [scan_eq, scan_eq, expression_agree (h.drop _)]

theorem match?_agree (h : d.AgreeAt text d') : match? d text = match? d' text := by
  rw [match?, match?, scan_agree h]

end Placeholder

/-! ### Comments -/

namespace Comment

theorem startsLine_agree (h : d.AgreeAt text d') : startsLine d text = startsLine d' text := by
  unfold startsLine
  split
  · rw [h.on .spaceAfterDashes ⟨by decide, Switch.triggered_of_pair (by decide)⟩]
  · rw [h.on_of_mem (s := .hashComments) (c := '#') (by decide) (by decide) (by simp)]
  · rw [h.on .slashComments ⟨by decide, Switch.triggered_of_pair (by decide)⟩]
  · rfl

theorem line?_agree (h : d.AgreeAt text d') : line? d text = line? d' text := by
  rw [line?, line?, startsLine_agree h]

end Comment

/-! ### Plain lexemes -/

namespace Symbol

theorem string?_agree (h : d.AgreeAt text d') : string? d text = string? d' text := by
  cases text with
  | nil => rfl
  | cons c rest =>
    by_cases hc : c = '"'
    · subst hc
      have hRun : delimited '"' (d.on .backslashEscapes) .string .unterminatedString
          ('"' :: rest) = delimited '"' (d'.on .backslashEscapes) .string .unterminatedString
          ('"' :: rest) := by
        refine h.escapes (f := fun e => delimited '"' e .string .unterminatedString ('"' :: rest))
          fun hNone escapes => ?_
        simp only [delimited, Quoted.length?_of_not_mem hNone escapes]
      rw [string?, hRun, string?,
        h.on_of_mem (s := .doubleQuotedStrings) (c := '"') (by decide) (by decide) (by simp)]
    · simp [string?, hc]

theorem quotedIdentifier?_agree (h : d.AgreeAt text d') :
    quotedIdentifier? d text = quotedIdentifier? d' text := by
  cases text with
  | nil => rfl
  | cons c rest =>
    rw [quotedIdentifier?, Dialect.isIdentifierQuote, h.identifierQuotes]
    rfl

theorem specialVariable?_agree (h : d.AgreeAt text d') :
    specialVariable? d text = specialVariable? d' text := by
  cases text with
  | nil => rfl
  | cons c rest =>
    rw [specialVariable?, Dialect.isVariableChar, h.variableChars]
    rfl

theorem operatorRun_agree (h : d.AgreeAt text d') : operatorRun d text = operatorRun d' text := by
  induction text with
  | nil => rfl
  | cons c rest ih =>
    rw [operatorRun, Comment.startsLine_agree h, ih (h.suffix (List.suffix_cons c rest)),
      operatorRun, Dialect.isOperatorChar, Dialect.isOperatorChar, h.operatorChars]

theorem operator?_agree (h : d.AgreeAt text d') : operator? d text = operator? d' text := by
  cases text with
  | nil => rfl
  | cons c rest =>
    rw [operator?, operatorRun_agree (h.suffix (List.suffix_cons c rest)), operator?,
      Dialect.isOperatorChar, Dialect.isOperatorChar, h.operatorChars]

theorem word?_agree (h : d.AgreeAt text d') (before : Option TokenKind) :
    word? d before text = word? d' before text := by
  cases text with
  | nil => rfl
  | cons c rest =>
    have hKind : d.wordKind = d'.wordKind := by
      funext w
      rw [Dialect.wordKind, Dialect.isKeyword, Dialect.isTypeName, h.keywords, h.typeNames]
      rfl
    rw [word?, wordKindAt, hKind]
    rfl

end Symbol

/-! ### Quoted regions -/

namespace Region

theorem apostrophe?_agree (h : d.AgreeAt text d') : apostrophe? d text = apostrophe? d' text := by
  unfold apostrophe?
  split
  · next rest =>
    have hPlan : QuotePlan.ofText (d.on .backslashEscapes) rest =
        QuotePlan.ofText (d'.on .backslashEscapes) rest :=
      (h.suffix (List.suffix_cons _ rest)).escapes (f := fun e => QuotePlan.ofText e rest)
        QuotePlan.ofText_of_not_mem
    rw [hPlan]
  · rfl

theorem next_agree (h : d.AgreeAt text d') (count : Nat) :
    next d count text = next d' count text := by
  have hPlaceholder : placeholder? d count text = placeholder? d' count text := by
    rw [placeholder?, Placeholder.match?_agree h, placeholder?]
  have hContent : contentLength (d.on .backslashEscapes) count text =
      contentLength (d'.on .backslashEscapes) count text :=
    h.escapes (f := fun e => contentLength e count text) contentLength_of_not_mem
  simp only [next, Recogniser.firstOf, List.findSome?_cons, hPlaceholder, hContent]

theorem scan_agree (h : d.AgreeAt text d') (count : Nat) :
    scan d count text = scan d' count text := by
  fun_induction scan d count text with
  | case1 count => rw [scan]
  | case2 count c rest m remaining hClose =>
    have hNext := next_agree h count
    rw [scan, ← hNext]
    simp only [m] at hClose
    simp only [hClose, if_true]
    rfl
  | case3 count c rest m remaining hInner region ih =>
    have hNext := next_agree h count
    simp only [dite_eq_ite, remaining] at ih
    rw [scan_of_inner (d := d') (List.cons_ne_nil c rest) (by rw [← hNext]; exact hInner), ← hNext,
      ← ih (h.drop _)]
    rfl

end Region

/-! ### One step -/

namespace Lexeme

theorem Form.recogniser_agree (h : d.AgreeAt text d') (before : Option TokenKind) {f : Form}
    (hf : f ≠ .literal) : f.recogniser d before text = f.recogniser d' before text := by
  cases f with
  | placeholder => exact Placeholder.match?_agree h
  | apostrophe => exact Region.apostrophe?_agree h
  | literal => exact absurd rfl hf
  | lineComment => exact Comment.line?_agree h
  | doubleQuoted => exact Symbol.string?_agree h
  | quotedIdentifier => exact Symbol.quotedIdentifier?_agree h
  | specialVariable => exact Symbol.specialVariable?_agree h
  | operator => exact Symbol.operator?_agree h
  | word => exact Symbol.word?_agree h before
  | whitespace | unmatchedClose | blockComment | number | punctuation => rfl

/-- **One step asks for no switch without its trigger.** -/
theorem next_agree (h : d.AgreeAt text d') (hBits : Literal.bits? d text = Literal.bits? d' text)
    (before : Option TokenKind) : next d before text = next d' before text := by
  have hForms : ∀ f : Form, f.recogniser d before text = f.recogniser d' before text := by
    intro f
    by_cases hf : f = .literal
    · rw [hf]
      exact Literal.match?_agree h hBits
    · exact f.recogniser_agree h before hf
  simp only [next, Recogniser.firstOf, Form.forms_eq, List.findSome?_map, Function.comp_def, hForms]

end Lexeme

/-! ### A whole text -/

/-- The verdicts on closed bits between quotes, where they are no bytes. -/
def Literal.bitsVerdicts : List Verdict := [accept .bits, reject .malformedBits]

theorem Lexeme.kind_mem_of_bitsVerdicts {x : Lexeme} (h : x.verdict ∈ Literal.bitsVerdicts) :
    x.kind ∈ [TokenKind.bits, .bytes, .error] := by
  have hFacts : ∀ v ∈ Literal.bitsVerdicts, v.kind ∈ [TokenKind.bits, .bytes, .error] := by
    decide
  exact hFacts x.verdict h

/-- A change of lexemes that keeps their texts and changes the verdict on quoted bits
alone, to one after which reading goes on in the same way. -/
structure Lexeme.Relabels (f : Lexeme → Lexeme) : Prop where
  text : ∀ x, (f x).text = x.text
  eq_self : ∀ x, x.verdict ∉ Literal.bitsVerdicts → f x = x
  kind : ∀ x, x.verdict ∈ Literal.bitsVerdicts → (f x).kind ∈ [.bits, .bytes, .error]

/-- Of the lexeme before, only whether it is part of a name matters to a dot. -/
theorem settleDots_congr {before before' : Option TokenKind}
    (h : before.any (·.isNamePart) = before'.any (·.isNamePart)) (xs : List Lexeme) :
    settleDots before xs = settleDots before' xs := by
  cases xs with
  | nil => rfl
  | cons x xs => rw [settleDots, h, settleDots]

namespace Lexeme.Relabels

variable {f : Lexeme → Lexeme} (hf : Relabels f)

include hf

/-- Such a change is not seen by a question about kinds that treats bits, bytes and
errors alike. -/
theorem apply_kind {α : Type} (g : TokenKind → α) (hBytes : g .bytes = g .bits)
    (hError : g .error = g .bits) (x : Lexeme) : g (f x).kind = g x.kind := by
  have hAlike : ∀ kind ∈ [TokenKind.bits, .bytes, .error], g kind = g .bits := by
    simp [hBytes, hError]
  by_cases hx : x.verdict ∈ Literal.bitsVerdicts
  · rw [hAlike _ (hf.kind x hx), hAlike _ (kind_mem_of_bitsVerdicts hx)]
  · rw [hf.eq_self x hx]

/-- The quote of a region stays one, and nothing becomes one. -/
theorem verdict_eq_iff (x : Lexeme) :
    (f x).verdict = accept .regionQuote ↔ x.verdict = accept .regionQuote := by
  by_cases hx : x.verdict ∈ Literal.bitsVerdicts
  · have hKind := hf.kind x hx
    have hFacts : accept .regionQuote ∉ Literal.bitsVerdicts ∧
        (accept .regionQuote).kind ∉ [TokenKind.bits, .bytes, .error] := by
      decide
    exact ⟨fun h => absurd (h ▸ hKind) hFacts.2, fun h => absurd (h ▸ hx) hFacts.1⟩
  · rw [hf.eq_self x hx]

theorem map_region (d : Dialect) (count : Nat) (text : List Char) :
    (Region.scan d count text).lexemes.map f = (Region.scan d count text).lexemes := by
  have hSelf : ∀ x ∈ (Region.scan d count text).lexemes, f x = id x := by
    refine forall_mem_region (fun count c rest => hf.eq_self _ ?_) count text
    have hFacts : ∀ v ∈ Region.verdicts, v ∉ Literal.bitsVerdicts := by decide
    exact hFacts _ (Region.next_verdict d count c rest)
  rw [List.map_congr_left hSelf, List.map_id]

theorem settled (between : Bool) (x : Lexeme) :
    (f x).settled between = f (x.settled between) := by
  have hDot : ((f x).kind = .dot) = (x.kind = .dot) :=
    hf.apply_kind (· = .dot) (by simp) (by simp) x
  have hStray : f ⟨x.text, reject .strayDot⟩ = ⟨x.text, reject .strayDot⟩ :=
    hf.eq_self _ (by simp [Literal.bitsVerdicts])
  simp only [Lexeme.settled, hDot, hf.text]
  split
  · rw [hStray]
  · rfl

theorem settleDots_map (before : Option TokenKind) (xs : List Lexeme) :
    settleDots before (xs.map f) = (settleDots before xs).map f := by
  induction xs generalizing before with
  | nil => rfl
  | cons x xs ih =>
    have hHead : (xs.map f).head?.any (·.kind.isNamePart) =
        xs.head?.any (·.kind.isNamePart) := by
      cases xs with
      | nil => rfl
      | cons y ys => exact hf.apply_kind (·.isNamePart) rfl rfl y
    have hName : (some (f x).kind).any (·.isNamePart) = (some x.kind).any (·.isNamePart) :=
      hf.apply_kind (·.isNamePart) rfl rfl x
    rw [List.map_cons, settleDots, settleDots, List.map_cons, hHead, settleDots_congr hName, ih,
      hf.settled]

end Lexeme.Relabels

theorem Region.after_suffix {count : Nat} {after : List Char}
    (h : (scan d count text).after = some after) : after <:+ text := by
  have hWhole := text_lexemes d count text
  rw [h, Option.getD_some] at hWhole
  exact ⟨_, hWhole⟩

section Reading

variable {source : List Char} {f : Lexeme → Lexeme} (hf : Lexeme.Relabels f)
  (hRegion : ∀ text, text <:+ source → Region.scan d 0 text = Region.scan d' 0 text)
  (hStep : ∀ text before, text <:+ source →
    (Lexeme.next d' before text).length = (Lexeme.next d before text).length ∧
      (Lexeme.next d' before text).lexeme text = f ((Lexeme.next d before text).lexeme text))

include hf hRegion hStep

/-- **Reading in lockstep.**  If each step of one dialect is, up to a change of the
verdict on quoted bits, the same step of the other, so is the whole reading. -/
theorem lexemes_relabel : ∀ {text : List Char} (before : Option TokenKind), text <:+ source →
    lexemes d' before text = (lexemes d before text).map f := by
  intro text
  -- a step takes a lexeme or a whole region, so that the induction is on the length
  induction hLength : text.length using Nat.strongRecOn generalizing text with
  | ind k ih =>
    subst hLength
    intro before hSuffix
    by_cases hText : text = []
    · subst hText
      rw [lexemes, lexemes]
      rfl
    · obtain ⟨hSame, hLexeme⟩ := hStep text before hSuffix
      have hVerdict : (Lexeme.next d' before text).verdict = accept .regionQuote ↔
          (Lexeme.next d before text).verdict = accept .regionQuote := by
        have hEq := congrArg Lexeme.verdict hLexeme
        rw [show (Lexeme.next d' before text).verdict = _ from hEq]
        exact hf.verdict_eq_iff _
      by_cases hQuote : (Lexeme.next d before text).verdict = accept .regionQuote
      · have hNext := hVerdict.2 hQuote
        obtain ⟨rest, rfl, _⟩ := Lexeme.next_eq_regionQuote hQuote
        have hRest : rest <:+ source := (List.suffix_cons _ rest).trans hSuffix
        have hSame := hRegion rest hRest
        cases hAfter : (Region.scan d 0 rest).after with
        | none =>
          rw [lexemes_of_open hNext (hSame ▸ hAfter), lexemes_of_open hQuote hAfter, ← hSame,
            List.map_cons, hf.map_region, hf.eq_self _ (by decide)]
        | some after =>
          have hShort := Region.length_after_lt hAfter
          rw [lexemes_of_closed hNext (hSame ▸ hAfter), lexemes_of_closed hQuote hAfter,
            ← hSame, ih after.length (Nat.lt_succ_of_lt hShort) rfl _
              ((Region.after_suffix hAfter).trans hRest),
            List.map_cons, List.map_append, hf.map_region, hf.eq_self _ (by decide)]
      · have hKind : (Lexeme.next d' before text).kind =
            (f ((Lexeme.next d before text).lexeme text)).kind :=
          congrArg Lexeme.kind hLexeme
        have hPos := Lexeme.next_pos d before text
        have hShort : (text.drop (Lexeme.next d before text).length).length < text.length := by
          have := List.length_pos_iff.2 hText
          rw [List.length_drop]
          omega
        -- the kind before is changed as well, but to bytes, after which numbers and words
        -- are read as they are after bits and errors
        have hBefore : ∀ rest, Lexeme.next d' (some (Lexeme.next d' before text).kind) rest =
            Lexeme.next d' (some (Lexeme.next d before text).kind) rest := by
          intro rest
          rw [hKind]
          refine Lexeme.next_congr (fun _ => ?_) ?_
          · exact hf.apply_kind (·.isNamePart) rfl rfl _
          · exact hf.apply_kind (some · == some .dot) rfl rfl _
        rw [lexemes_of_plain hText (mt hVerdict.1 hQuote), lexemes_of_plain hText hQuote,
          lexemes_congr (hBefore _), hSame, hLexeme,
          ih _ hShort rfl _ ((List.drop_suffix _ text).trans hSuffix), List.map_cons]

theorem settledLexemes_relabel_of_regions :
    settledLexemes d' source = (settledLexemes d source).map f := by
  rw [settledLexemes, lexemes_relabel hf hRegion hStep none List.suffix_rfl, hf.settleDots_map,
    settledLexemes]

end Reading

theorem settledLexemes_relabel {source : List Char} {f : Lexeme → Lexeme}
    (hf : Lexeme.Relabels f) (h : d.AgreeAt source d')
    (hStep : ∀ text before, text <:+ source →
      (Lexeme.next d' before text).length = (Lexeme.next d before text).length ∧
        (Lexeme.next d' before text).lexeme text = f ((Lexeme.next d before text).lexeme text)) :
    settledLexemes d' source = (settledLexemes d source).map f :=
  settledLexemes_relabel_of_regions hf (fun _ hText => Region.scan_agree (h.suffix hText) 0) hStep

theorem Lexeme.relabels_id : Relabels id :=
  ⟨fun _ => rfl, fun _ _ => rfl, fun _ => kind_mem_of_bitsVerdicts⟩

/-- Dialects whose steps are the same read a text alike. -/
theorem Dialect.scan_congr {source : List Char}
    (hRegion : ∀ text, text <:+ source → Region.scan d 0 text = Region.scan d' 0 text)
    (hNext : ∀ text before, text <:+ source →
      Lexeme.next d before text = Lexeme.next d' before text) :
    d.scan source = d'.scan source := by
  have hLexemes : settledLexemes d' source = settledLexemes d source := by
    refine (settledLexemes_relabel_of_regions Lexeme.relabels_id hRegion
      fun text before hText => ?_).trans (List.map_id _)
    rw [hNext text before hText]
    exact ⟨rfl, rfl⟩
  rw [SqlTemplate.scan_eq, SqlTemplate.scan_eq, hLexemes]

/-- Dialects that agree on the switches whose triggers stand in a text read it alike. -/
theorem Dialect.Agree.scan_eq {source : List Char} (h : d.Agree (·.Triggered source) d') :
    d.scan source = d'.scan source := by
  have hAt : d.AgreeAt source d' := h.mono fun _ hs => hs.2
  refine scan_congr (fun text hText => Region.scan_agree (hAt.suffix hText) 0)
    fun text before hText => Lexeme.next_agree (hAt.suffix hText) ?_ before
  exact Literal.bits?_agree (hAt.suffix hText) fun hStart =>
    h.on .bitsAsBytes ((Literal.triggered_of_startsBits hStart).mono hText.isInfix)

/-- **A switch acts only where its trigger stands.**  Two dialects that differ in one
switch alone give a text the same tokens and the same diagnostics, if no trigger of that
switch stands in the text. -/
theorem scan_of_not_triggered (s : Switch) (d d' : Dialect) (h : d.Agree (· ≠ s) d')
    (source : List Char) (hSource : ¬s.Triggered source) : d.scan source = d'.scan source := by
  refine Dialect.Agree.scan_eq (h.mono fun other hOther => ?_)
  rintro rfl
  exact hSource hOther

theorem Dialect.agree_set (d : Dialect) (s : Switch) (value : Bool) :
    d.Agree (· ≠ s) ((Edit.set s value).apply d) :=
  { keywords := rfl
    typeNames := rfl
    identifierQuotes := rfl
    operatorChars := rfl
    variableChars := rfl
    on := fun _ hOther => (if_neg hOther).symm }

/-- Slashes, but no two of them side by side. -/
theorem scan_of_not_triggered_slashes :
    ¬Switch.slashComments.Triggered "a/ /*/ /*/-- /\n/b".toList ∧
      Preset.standard.rules.on .slashComments = false ∧
      Preset.standard.rules.scan "a/ /*/ /*/-- /\n/b".toList =
        ((Edit.set .slashComments true).apply Preset.standard.rules).scan
          "a/ /*/ /*/-- /\n/b".toList :=
  have hSource : ¬Switch.slashComments.Triggered "a/ /*/ /*/-- /\n/b".toList := by
    decide +kernel
  ⟨hSource, rfl, scan_of_not_triggered .slashComments _ _ (Dialect.agree_set _ _ _) _ hSource⟩

/-- Each switch does act on a text with a trigger of it. -/
example : ∀ p ∈ [(Switch.bitsAsBytes, "b''"), (.doubleQuotedBits, ".b\"\""),
    (.dollarQuotes, "$$$$"), (.backslashEscapes, "'\\'"), (.hashComments, "#"),
    (.slashComments, "//"), (.spaceAfterDashes, "--1"), (.doubleQuotedStrings, "\"\""),
    (.charsetStrings, ".n''")],
    ((Edit.set p.1 true).apply Preset.standard.rules).scan p.2.toList ≠
      ((Edit.set p.1 false).apply Preset.standard.rules).scan p.2.toList := by
  decide +kernel

end SqlTemplate
