import SqlTemplate.Proofs.DollarQuotes
import SqlTemplate.Proofs.LetterCase
import SqlTemplate.Proofs.Quotation
import SqlTemplate.Proofs.Utf8

/-!
# Literals measured in bytes

A reader on bytes tells literals apart by their first two bytes and adds their lengths up from the
bytes of an introducer, of a run of digits, of a quoted run and of a delimiter.  At such sums it
cuts bodies, tags and delimiters out of the text.  `Bytewise.literal?` is this reader, with every
cut checked: one that is out of range or inside a character makes the whole of it fail.

* `Bytewise.literal?_eq`: no cut fails, and the literal is the one that is found character by
  character.
* `Literal.Fits`: the lengths that a literal can have, in characters.

The main statement is `literal_fits`.
-/

namespace SqlTemplate

open Text (AsciiOnly byteLength)

/-- The match with its length in bytes instead of characters. -/
def Match.inBytes (text : List Char) (m : Match) : Match := ⟨m.byteLength text, m.verdict⟩

theorem Match.inBytes_accept (text : List Char) (kind : TokenKind) (n : Nat) :
    (Match.accept kind n).inBytes text = .accept kind (Text.byteLength (text.take n)) := rfl

theorem Match.inBytes_reject (text : List Char) (fault : Fault) (n : Nat) :
    (Match.reject fault n).inBytes text = .reject fault (Text.byteLength (text.take n)) :=
  rfl

/-- What is rejected with all of the text. -/
theorem Match.inBytes_all (text : List Char) (fault : Fault) :
    (Match.reject fault text.length).inBytes text = .reject fault (Text.byteLength text) := by
  rw [inBytes_reject, List.take_length]

/-! ### The reader -/

namespace Bytewise

/-- The offset after the closing quote, where the text starts at offset `i`. -/
def closing? (quote : Char) (escapes : Bool) (i : Nat) : List Char → Option Nat
  | [] => none
  | c :: rest =>
    if escapes && c == '\\' then
      match rest with
      | [] => none
      | next :: after => closing? quote escapes (i + c.utf8Size + next.utf8Size) after
    else if c == quote then
      match rest with
      | [] => some (i + c.utf8Size)
      | next :: after =>
        if next == quote then closing? quote escapes (i + c.utf8Size + next.utf8Size) after
        else some (i + c.utf8Size)
    else closing? quote escapes (i + c.utf8Size) rest

/-- Length of the quoted run at the head of a text, or of all of the text if the run is never
closed. -/
def quotedLength (quote : Char) (escapes : Bool) (text : List Char) : Except Nat Nat :=
  match closing? quote escapes (byteLength (text.take 1)) text.tail with
  | some n => .ok n
  | none => .error (byteLength text)

/-- Digits after an introducer of two bytes. -/
def digits? (kind : TokenKind) (isDigit : Char → Bool) (text : List Char) :
    Option (Option Match) := do
  let rest ← Text.bytesFrom? 2 text
  let count := Text.byteRun isDigit rest
  return if 0 < count then some (.accept kind (2 + count)) else none

def bits (d : Dialect) (quote : Char) (text : List Char) : Option Match := do
  let run ← Text.sliceFrom? 1 text
  match quotedLength quote (d.on .bitsAsBytes && d.on .backslashEscapes) run with
  | .error n => return .reject .unterminatedString (n + 1)
  | .ok n =>
    let total := n + 1
    if d.on .bitsAsBytes then return .accept .bytes total
    else
      let body ← Text.slice? 2 (total - 1) text
      return if (Text.bytes body).all fun b => Literal.isBinaryDigit (Char.ofUInt8 b) then
        .accept .bits total else .reject .malformedBits total

def hex (text : List Char) : Option Match := do
  let run ← Text.sliceFrom? 1 text
  match quotedLength '\'' false run with
  | .error n => return .reject .unterminatedString (n + 1)
  | .ok n =>
    let total := n + 1
    let body ← Text.slice? 2 (total - 1) text
    return if (Text.bytes body).all fun b => Literal.isHexDigit (Char.ofUInt8 b) then
      .accept .number total else .reject .malformedHex total

/-- A string between apostrophes after an introducer of so many bytes. -/
def introduced (introducer : Nat) (escapes : Bool) (text : List Char) : Option Match := do
  let run ← Text.sliceFrom? introducer text
  match quotedLength '\'' escapes run with
  | .ok n => return .accept .string (introducer + n)
  | .error n => return .reject .unterminatedString (introducer + n)

def charset? (d : Dialect) (text : List Char) : Option (Option Match) := do
  let rest ← Text.bytesFrom? 1 text
  let name := Text.byteRun Char.isAlphanum rest
  if name < 2 || !(Text.byteAt text (1 + name)).any (· == '\'') then return none
  else (introduced (1 + name) (d.on .backslashEscapes) text).map some

/-- Length of the tag of a dollar quote, read from just after its first dollar. -/
def tagLength? (after : List Char) : Option (Option Nat) :=
  if after.head? == some '$' then return some 0
  else if !Text.startsWord after then return none
  else do
    let n := byteLength (after.takeWhile Text.isWordChar)
    let rest ← Text.sliceFrom? n after
    return if rest.head? == some '$' then some n else none

/-- A dollar-quoted string whose tag has so many bytes. -/
def dollar (tag : Nat) (text : List Char) : Option Match := do
  let delimiter ← Text.slice? 0 (tag + 2) text
  let body := byteLength delimiter
  let rest ← Text.sliceFrom? body text
  return match Text.indexOf? delimiter rest with
    | some n => .accept .string (body + byteLength (rest.take n) + byteLength delimiter)
    | none => .reject .unterminatedDollarString (byteLength text)

def dollar? (text : List Char) : Option (Option Match) := do
  let after ← Text.sliceFrom? 1 text
  match ← tagLength? after with
  | none => return none
  | some tag => (dollar tag text).map some

/-- The literal at the head of a text, told by the first two bytes.  The outer option fails if a
cut does. -/
def literal? (d : Dialect) (text : List Char) : Option (Option Match) :=
  let first (p : Char → Bool) := (Text.byteAt text 0).any p
  let second (p : Char → Bool) := (Text.byteAt text 1).any p
  if first (· == '0') && second (·.toLower == 'b') then digits? .bits Literal.isBinaryDigit text
  else if first (· == '0') && second (·.toLower == 'x') then
    digits? .number Literal.isHexDigit text
  else if first (·.toLower == 'b') && second (· == '\'') then (bits d '\'' text).map some
  else if first (·.toLower == 'b') && second (· == '"') && d.on .doubleQuotedBits then
    (bits d '"' text).map some
  else if first (·.toLower == 'x') && second (· == '\'') then (hex text).map some
  else if first (·.toLower == 'e') && second (· == '\'') then (introduced 1 true text).map some
  else if first (·.toLower == 'n') && second (· == '\'') && d.on .charsetStrings then
    (introduced 1 (d.on .backslashEscapes) text).map some
  else if first (· == '_') && d.on .charsetStrings then charset? d text
  else if first (· == '$') && d.on .dollarQuotes then dollar? text
  else return none

/-! ### Cuts that do not fail -/

theorem asciiOnly_toLower {letter : Char} (h : letter.toNat < 0x80) :
    AsciiOnly (·.toLower == letter) := by
  intro c hc
  rw [beq_iff_eq] at hc
  by_cases hSame : c.toLower = c
  · rwa [← hSame, hc]
  · have hCapitals : (Text.capitals.all fun a => a.toNat < 0x80) = true := by decide
    exact of_decide_eq_true
      (List.all_eq_true.1 hCapitals c (Text.mem_capitals_of_toLower_ne hSame))

theorem asciiOnly_beq {a : Char} (h : a.toNat < 0x80) : AsciiOnly (· == a) := by
  intro c hc
  rwa [beq_iff_eq.1 hc]

theorem asciiOnly_isAlphanum : AsciiOnly Char.isAlphanum := by
  intro c hc
  have hNumber : c.toNat = c.val.toNat := rfl
  have hUpper : c.isUpper = true → c.val ≤ 90 := fun h => (of_decide_eq_true h).2
  have hLower : c.isLower = true → c.val ≤ 122 := fun h =>
    of_decide_eq_true (Bool.and_eq_true_iff.1 h).2
  have hDigit : c.isDigit = true → c.val ≤ 57 := fun h =>
    of_decide_eq_true (Bool.and_eq_true_iff.1 h).2
  simp only [UInt32.le_iff_toNat_le, UInt32.reduceToNat] at hUpper hLower hDigit
  have hClasses : ((c.isUpper || c.isLower) || c.isDigit) = true := hc
  rw [Bool.or_eq_true, Bool.or_eq_true] at hClasses
  rcases hClasses with (h | h) | h
  · have := hUpper h
    omega
  · have := hLower h
    omega
  · have := hDigit h
    omega

theorem asciiOnly_isHexDigit : AsciiOnly Literal.isHexDigit := by
  intro c hc
  have hNumber : c.toNat = c.val.toNat := rfl
  simp [Literal.isHexDigit, Char.isDigit, Char.le_def, UInt32.le_iff_toNat_le] at hc
  omega

theorem asciiOnly_isBinaryDigit : AsciiOnly Literal.isBinaryDigit := by
  intro c hc
  rw [Literal.isBinaryDigit, Bool.or_eq_true, beq_iff_eq, beq_iff_eq] at hc
  rcases hc with rfl | rfl <;> decide

/-! ### Quoted runs -/

/-- The search for the closing quote adds up bytes where the other one adds up characters. -/
theorem closing?_eq (quote : Char) (escapes : Bool) (i : Nat) (text : List Char) :
    closing? quote escapes i text =
      (Quoted.closing? quote escapes text).map fun n => i + byteLength (text.take n) := by
  fun_induction closing? quote escapes i text with
  | case1 => rfl
  | case2 i c hEscape =>
    rw [Quoted.closing?, if_pos hEscape]
    rfl
  | case3 i c hEscape next after ih =>
    rw [Quoted.closing?, if_pos hEscape, Option.map_map, ih]
    refine congrArg (Option.map · _) (funext fun n => ?_)
    simp [Nat.add_assoc]
  | case4 i c hEscape hQuote =>
    rw [Quoted.closing?, if_neg hEscape, if_pos hQuote]
    rfl
  | case5 i c hEscape hQuote next after hNext ih =>
    rw [Quoted.closing?, if_neg hEscape, if_pos hQuote, if_pos hNext, Option.map_map, ih]
    refine congrArg (Option.map · _) (funext fun n => ?_)
    simp [Nat.add_assoc]
  | case6 i c hEscape hQuote next after hNext =>
    rw [Quoted.closing?, if_neg hEscape, if_pos hQuote, if_neg hNext]
    rfl
  | case7 i c rest hEscape hQuote ih =>
    unfold Quoted.closing?
    rw [if_neg hEscape, if_neg hQuote, Option.map_map, ih]
    refine congrArg (Option.map · _) (funext fun n => ?_)
    simp [Nat.add_assoc]

theorem quotedLength_eq (quote : Char) (escapes : Bool) (text : List Char) :
    quotedLength quote escapes text =
      match Quoted.length? quote escapes text with
      | some n => .ok (byteLength (text.take n))
      | none => .error (byteLength text) := by
  rw [quotedLength, closing?_eq, Quoted.length?]
  cases Quoted.closing? quote escapes text.tail with
  | none => rfl
  | some n =>
    cases text with
    | nil => simp
    | cons c rest => simp

/-- The body between two quotes of one byte, behind a letter of one byte. -/
theorem slice?_body {c quote : Char} {escapes : Bool} {rest : List Char} {n : Nat}
    (hc : c.toNat < 0x80) (hQuote : quote.toNat < 0x80)
    (h : Quoted.length? quote escapes (quote :: rest) = some n) :
    Text.slice? 2 (byteLength ((quote :: rest).take n)) (c :: quote :: rest) =
      some (((c :: quote :: rest).take n).drop 2) := by
  obtain ⟨m, hm, rfl⟩ := Option.map_eq_some_iff.1 h
  obtain ⟨-, body, after, -, hRest, -, rfl⟩ := Quoted.exists_body_of_closing? hm
  rw [List.tail_cons] at hRest
  subst hRest
  have hOpen : byteLength [c, quote] = 2 :=
    Text.byteLength_of_ascii (by simp [hc, hQuote])
  have hRun : (quote :: (body ++ quote :: after)).take (body.length + 1 + 1) =
      quote :: (body ++ [quote]) := by
    rw [List.take_succ_cons, List.take_length_add_append]
    rfl
  have hStop : byteLength (quote :: (body ++ [quote])) = 2 + byteLength body := by
    have hSize := Text.utf8Size_of_ascii hQuote
    rw [Text.byteLength_cons, Text.byteLength_append, Text.byteLength_cons, hSize,
      Text.byteLength_nil]
    omega
  have hBody : ((c :: quote :: (body ++ quote :: after)).take (body.length + 1 + 1)).drop 2 =
      body := by
    rw [List.take_succ_cons, List.take_succ_cons, List.take_left]
    rfl
  have hSlice := Text.slice?_append [c, quote] body (quote :: after)
  rw [hOpen] at hSlice
  rw [hRun, hStop, hBody]
  exact hSlice

/-! ### The forms of literals -/

theorem digits?_eq {kind : TokenKind} {isDigit : Char → Bool} (hDigit : AsciiOnly isDigit)
    {a b : Char} (ha : a.toNat < 0x80) (hb : b.toNat < 0x80) (rest : List Char) :
    digits? kind isDigit (a :: b :: rest) =
      some ((Literal.digits? kind isDigit rest).map (Match.inBytes (a :: b :: rest))) := by
  have hStart : byteLength [a, b] = 2 := Text.byteLength_of_ascii (by simp [ha, hb])
  have hRest := Text.bytesFrom?_append [a, b] rest
  rw [hStart] at hRest
  have hTake : (a :: b :: rest).take ((rest.takeWhile isDigit).length + 2) =
      [a, b] ++ rest.takeWhile isDigit := by
    rw [List.take_succ_cons, List.take_succ_cons, Text.take_run]
    rfl
  have hRun : byteLength (rest.takeWhile isDigit) = (rest.takeWhile isDigit).length :=
    Text.byteLength_of_ascii fun c hc => hDigit c (List.all_eq_true.1 List.all_takeWhile c hc)
  simp only [digits?, Literal.digits?, List.cons_append, List.nil_append] at hRest ⊢
  rw [hRest, Option.bind_eq_bind, Option.bind_some, Text.byteRun_bytes hDigit]
  split
  · rw [Option.map_some, Match.inBytes_accept, hTake, Text.byteLength_append, hStart, hRun]
    rfl
  · rfl

/-- The text behind a letter of one byte. -/
theorem sliceFrom?_one {c : Char} (hc : c.toNat < 0x80) (rest : List Char) :
    Text.sliceFrom? 1 (c :: rest) = some rest := by
  have hFrom := Text.sliceFrom?_append [c] rest
  rwa [Text.byteLength_cons, Text.utf8Size_of_ascii hc] at hFrom

theorem bits_eq (d : Dialect) {c quote : Char} (hc : c.toNat < 0x80) (hQuote : quote.toNat < 0x80)
    (rest : List Char) :
    bits d quote (c :: quote :: rest) =
      some ((Literal.bits d quote (c :: quote :: rest)).inBytes (c :: quote :: rest)) := by
  have hOne := Text.utf8Size_of_ascii hc
  rw [bits, sliceFrom?_one hc, Option.bind_eq_bind, Option.bind_some, quotedLength_eq,
    Literal.bits, List.tail_cons]
  cases hLength : Quoted.length? quote (d.on .bitsAsBytes && d.on .backslashEscapes)
      (quote :: rest) with
  | none =>
    rw [Match.inBytes_all, Text.byteLength_cons c, hOne, Nat.add_comm]
    rfl
  | some n =>
    have hTotal : byteLength ((c :: quote :: rest).take (n + 1)) =
        byteLength ((quote :: rest).take n) + 1 := by
      rw [List.take_succ_cons, Text.byteLength_cons, hOne, Nat.add_comm]
    dsimp only
    rw [Nat.add_sub_cancel, slice?_body hc hQuote hLength]
    simp only [Option.bind_some, Text.all_bytes asciiOnly_isBinaryDigit]
    split
    · rw [Match.inBytes_accept, hTotal]
      rfl
    · split
      · rw [Match.inBytes_accept, hTotal]
        rfl
      · rw [Match.inBytes_reject, hTotal]
        rfl

theorem hex_eq {c : Char} (hc : c.toNat < 0x80) (rest : List Char) :
    hex (c :: '\'' :: rest) =
      some ((Literal.hex (c :: '\'' :: rest)).inBytes (c :: '\'' :: rest)) := by
  have hOne := Text.utf8Size_of_ascii hc
  rw [hex, sliceFrom?_one hc, Option.bind_eq_bind, Option.bind_some, quotedLength_eq,
    Literal.hex, List.tail_cons]
  cases hLength : Quoted.length? '\'' false ('\'' :: rest) with
  | none =>
    rw [Match.inBytes_all, Text.byteLength_cons c, hOne, Nat.add_comm]
    rfl
  | some n =>
    have hTotal : byteLength ((c :: '\'' :: rest).take (n + 1)) =
        byteLength (('\'' :: rest).take n) + 1 := by
      rw [List.take_succ_cons, Text.byteLength_cons, hOne, Nat.add_comm]
    dsimp only
    rw [Nat.add_sub_cancel, slice?_body hc (by decide) hLength]
    simp only [Option.bind_some, Text.all_bytes asciiOnly_isHexDigit]
    split
    · rw [Match.inBytes_accept, hTotal]
      rfl
    · rw [Match.inBytes_reject, hTotal]
      rfl

theorem introduced_eq (escapes : Bool) {introducer : List Char}
    (h : ∀ c ∈ introducer, c.toNat < 0x80) (run : List Char) :
    introduced introducer.length escapes (introducer ++ run) =
      some ((Literal.introduced introducer.length escapes (introducer ++ run)).inBytes
        (introducer ++ run)) := by
  have hBytes := Text.byteLength_of_ascii h
  have hRun := Text.sliceFrom?_append introducer run
  rw [hBytes] at hRun
  rw [introduced, hRun, Option.bind_eq_bind, Option.bind_some, quotedLength_eq,
    Literal.introduced, List.drop_left]
  cases hLength : Quoted.length? '\'' escapes run with
  | none =>
    rw [Match.inBytes_all, Text.byteLength_append, hBytes]
    rfl
  | some n =>
    rw [Match.inBytes_accept, List.take_length_add_append, Text.byteLength_append, hBytes]
    rfl

/-- An introducer of one letter. -/
theorem introduced_one {c : Char} (hc : c.toNat < 0x80) (escapes : Bool) (run : List Char) :
    introduced 1 escapes (c :: run) =
      some ((Literal.introduced 1 escapes (c :: run)).inBytes (c :: run)) := by
  have hIntroducer : ∀ x ∈ [c], x.toNat < 0x80 := by simpa using hc
  exact introduced_eq escapes hIntroducer run

theorem charset?_eq {d : Dialect} (hOn : d.on .charsetStrings = true) (rest : List Char) :
    charset? d ('_' :: rest) =
      some ((Literal.charset? d ('_' :: rest)).map (Match.inBytes ('_' :: rest))) := by
  have hRest : Text.bytesFrom? 1 ('_' :: rest) = some (Text.bytes rest) :=
    Text.bytesFrom?_append ['_'] rest
  -- the name and what follows it
  obtain ⟨name, more, hName, hText⟩ : ∃ name more,
      name = rest.takeWhile Char.isAlphanum ∧ rest = name ++ more :=
    ⟨_, rest.dropWhile Char.isAlphanum, rfl, List.takeWhile_append_dropWhile.symm⟩
  have hAscii : ∀ c ∈ '_' :: name, c.toNat < 0x80 := by
    rw [List.forall_mem_cons, hName]
    exact ⟨by decide, fun c hc =>
      asciiOnly_isAlphanum c (List.all_eq_true.1 List.all_takeWhile c hc)⟩
  have hQuote : (Text.byteAt ('_' :: rest) (1 + name.length)).any (· == '\'') =
      ((rest.drop name.length).head? == some '\'') := by
    have hAt := Text.byteAt_append ('_' :: name) more 0
    rw [Text.byteLength_of_ascii hAscii, List.length_cons, Nat.add_zero, Nat.add_comm] at hAt
    rw [hText, List.drop_left, ← List.cons_append, hAt,
      Text.any_byteAt_zero (asciiOnly_beq (by decide))]
    cases more.head? <;> rfl
  have hString := introduced_eq (d.on .backslashEscapes) hAscii more
  rw [List.cons_append, ← hText, List.length_cons] at hString
  rw [charset?, hRest, Option.bind_eq_bind, Option.bind_some,
    Text.byteRun_bytes asciiOnly_isAlphanum, ← hName, Literal.charset?]
  dsimp only
  rw [← hName, hQuote, Nat.add_comm 1, hString, hOn, Bool.true_and]
  by_cases hShort : name.length < 2
  · rw [decide_eq_true hShort, decide_eq_false (Nat.not_le.2 hShort), Bool.true_or, if_pos rfl,
      Bool.false_and]
    rfl
  · rw [decide_eq_false hShort, decide_eq_true (Nat.not_lt.1 hShort), Bool.false_or, Bool.true_and]
    cases (rest.drop name.length).head? == some '\'' <;> rfl

/-- The tag takes the bytes of its characters. -/
theorem tagLength?_eq (after : List Char) :
    tagLength? after =
      some ((Literal.tagLength? after).map fun n => byteLength (after.take n)) := by
  cases after with
  | nil => rfl
  | cons a rest =>
    by_cases ha : a = '$'
    · subst ha
      rfl
    · have hHead : ¬((a :: rest).head? == some '$') = true := by simpa using ha
      have hRest := Text.sliceFrom?_take (Text.wordRun (a :: rest)) (a :: rest)
      rw [Text.wordRun, Text.take_run] at hRest
      rw [tagLength?, if_neg hHead, Literal.tagLength?_cons ha, Text.startsWord, Text.wordRun]
      dsimp only
      rw [hRest]
      cases Text.isWordStart a with
      | false => rfl
      | true =>
        rw [Option.bind_eq_bind, Option.bind_some, Bool.not_true, if_neg Bool.false_ne_true,
          Bool.true_and]
        split
        · rw [Option.map_some, Text.take_run]
          rfl
        · rfl

/-- A dollar-quoted string behind its delimiter. -/
theorem dollar_eq (tag after : List Char) :
    dollar (byteLength tag) ('$' :: (tag ++ '$' :: after)) =
      some ((Literal.dollar (tag.length + 2) ('$' :: (tag ++ '$' :: after))).inBytes
        ('$' :: (tag ++ '$' :: after))) := by
  obtain ⟨delimiter, hDelimiter⟩ : ∃ delimiter, delimiter = '$' :: (tag ++ ['$']) := ⟨_, rfl⟩
  have hText : '$' :: (tag ++ '$' :: after) = delimiter ++ after := by simp [hDelimiter]
  have hLength : tag.length + 2 = delimiter.length := by simp [hDelimiter]
  have hBytes : byteLength tag + 2 = byteLength delimiter := by
    have hOne : ('$' : Char).utf8Size = 1 := rfl
    rw [hDelimiter, Text.byteLength_cons, Text.byteLength_append, Text.byteLength_cons, hOne,
      Text.byteLength_nil]
    omega
  have hSlice := Text.slice?_append [] delimiter after
  rw [Text.byteLength_nil, Nat.zero_add, List.nil_append] at hSlice
  rw [hText, hLength, dollar, hBytes, hSlice, Option.bind_eq_bind, Option.bind_some]
  dsimp only
  rw [Text.sliceFrom?_append, Option.bind_some, Literal.dollar, List.take_left, List.drop_left]
  cases hFound : Text.indexOf? delimiter after with
  | none =>
    rw [Match.inBytes_all]
    rfl
  | some n =>
    obtain ⟨⟨beyond, hBeyond⟩, -⟩ := Text.occurs_of_indexOf? hFound
    have hTake : (delimiter ++ after).take (delimiter.length + n + delimiter.length) =
        delimiter ++ (after.take n ++ delimiter) := by
      rw [Nat.add_assoc, List.take_length_add_append, List.take_add, ← hBeyond, List.take_left]
    have hSum : byteLength (delimiter ++ (after.take n ++ delimiter)) =
        byteLength delimiter + byteLength (after.take n) + byteLength delimiter := by
      rw [Text.byteLength_append, Text.byteLength_append, Nat.add_assoc]
    rw [Match.inBytes_accept, hTake, hSum]
    rfl

theorem dollar?_eq {d : Dialect} (hOn : d.on .dollarQuotes = true) (rest : List Char) :
    dollar? ('$' :: rest) =
      some ((Literal.dollar? d ('$' :: rest)).map (Match.inBytes ('$' :: rest))) := by
  rw [dollar?, sliceFrom?_one (by decide), Option.bind_eq_bind, Option.bind_some, tagLength?_eq,
    Option.bind_eq_bind, Option.bind_some, Literal.dollar?, if_pos hOn]
  cases hTag : Literal.tagLength? rest with
  | none => rfl
  | some n =>
    obtain ⟨tag, after, -, rfl, rfl⟩ := Literal.exists_isTag_of_tagLength? hTag
    rw [Option.map_some, List.take_left]
    dsimp only
    rw [dollar_eq]
    rfl

/-! ### The first two bytes -/

/-- The first two bytes pass if the first two characters do. -/
theorem any_first_second {p q : Char → Bool} (hp : AsciiOnly p) (hq : AsciiOnly q) (c : Char)
    (rest : List Char) :
    ((Text.byteAt (c :: rest) 0).any p && (Text.byteAt (c :: rest) 1).any q) =
      (p c && rest.head?.any q) := by
  rw [Text.any_byteAt_zero hp, List.head?_cons, Option.any_some]
  cases hc : p c with
  | false => rfl
  | true =>
    have hSecond := Text.byteAt_append [c] rest 0
    rw [Text.byteLength_cons, Text.utf8Size_of_ascii (hp c hc)] at hSecond
    rw [show Text.byteAt (c :: rest) 1 = Text.byteAt rest 0 from hSecond, Text.any_byteAt_zero hq]

/-- The tests of the first two bytes are tests of the first two characters. -/
theorem literal?_cons (d : Dialect) (c : Char) (rest : List Char) :
    literal? d (c :: rest) =
      if c == '0' && rest.head?.any (·.toLower == 'b') then
        digits? .bits Literal.isBinaryDigit (c :: rest)
      else if c == '0' && rest.head?.any (·.toLower == 'x') then
        digits? .number Literal.isHexDigit (c :: rest)
      else if c.toLower == 'b' && rest.head?.any (· == '\'') then
        (bits d '\'' (c :: rest)).map some
      else if c.toLower == 'b' && rest.head?.any (· == '"') && d.on .doubleQuotedBits then
        (bits d '"' (c :: rest)).map some
      else if c.toLower == 'x' && rest.head?.any (· == '\'') then (hex (c :: rest)).map some
      else if c.toLower == 'e' && rest.head?.any (· == '\'') then
        (introduced 1 true (c :: rest)).map some
      else if c.toLower == 'n' && rest.head?.any (· == '\'') && d.on .charsetStrings then
        (introduced 1 (d.on .backslashEscapes) (c :: rest)).map some
      else if c == '_' && d.on .charsetStrings then charset? d (c :: rest)
      else if c == '$' && d.on .dollarQuotes then dollar? (c :: rest)
      else some none := by
  have hLetter : ∀ letter ∈ ['b', 'x', 'e', 'n'], AsciiOnly (·.toLower == letter) := by
    have hAscii : ∀ letter ∈ ['b', 'x', 'e', 'n'], letter.toNat < 0x80 := by simp
    exact fun letter hMem => asciiOnly_toLower (hAscii letter hMem)
  have hMark : ∀ a ∈ ['0', '_', '$', '\'', '"'], AsciiOnly (· == a) := by
    have hAscii : ∀ a ∈ ['0', '_', '$', '\'', '"'], a.toNat < 0x80 := by simp
    exact fun a hMem => asciiOnly_beq (hAscii a hMem)
  simp only [List.forall_mem_cons, List.not_mem_nil, false_imp_iff, implies_true, and_true]
    at hLetter hMark
  obtain ⟨hb, hx, he, hn⟩ := hLetter
  obtain ⟨hZero, hLine, hDollar, hQuote, hDouble⟩ := hMark
  simp only [literal?, any_first_second hZero hb, any_first_second hZero hx,
    any_first_second hb hQuote, any_first_second hb hDouble, any_first_second hx hQuote,
    any_first_second he hQuote, any_first_second hn hQuote, Text.any_byteAt_zero hLine,
    Text.any_byteAt_zero hDollar, List.head?_cons, Option.any_some]
  rfl

/-- A letter in front of a literal is an ASCII character and no other first character of one. -/
theorem of_toLower {c letter : Char} (hMem : letter ∈ ['b', 'x', 'e', 'n'])
    (hc : c.toLower = letter) : c.toNat < 0x80 ∧ c ≠ '0' ∧ c ≠ '_' ∧ c ≠ '$' := by
  have hAscii : ∀ letter ∈ ['b', 'x', 'e', 'n'], letter.toNat < 0x80 := by simp
  have hMarks : ∀ letter ∈ ['b', 'x', 'e', 'n'], ∀ a ∈ ['0', '_', '$'], a.toLower ≠ letter := by
    simp
  have hOther : c ∉ ['0', '_', '$'] := fun hMark => hMarks letter hMem c hMark hc
  simp only [List.mem_cons, List.not_mem_nil, or_false, not_or] at hOther
  exact ⟨asciiOnly_toLower (hAscii letter hMem) c (beq_iff_eq.2 hc), hOther⟩

section Letters

variable {d : Dialect} {c : Char} (rest : List Char)

theorem literal?_zero : literal? d ('0' :: rest) =
    some ((Literal.radix? ('0' :: rest)).map (Match.inBytes ('0' :: rest))) := by
  rw [literal?_cons]
  cases rest with
  | nil => rfl
  | cons e rest =>
    have hDigit : ('0' : Char).toNat < 0x80 := by decide
    by_cases hBits : e.toLower = 'b'
    · have he := (of_toLower (by decide) hBits).1
      simp [hBits, Literal.radix?, digits?_eq asciiOnly_isBinaryDigit hDigit he]
    · by_cases hHex : e.toLower = 'x'
      · have he := (of_toLower (by decide) hHex).1
        simp [hHex, Literal.radix?, digits?_eq asciiOnly_isHexDigit hDigit he]
      · simp [hBits, hHex, Literal.radix?]

theorem literal?_b (h : c.toLower = 'b') : literal? d (c :: rest) =
    some ((Literal.bits? d (c :: rest)).map (Match.inBytes (c :: rest))) := by
  obtain ⟨hc, hZero, hLine, hDollar⟩ := of_toLower (by decide) h
  rw [literal?_cons]
  cases rest with
  | nil => simp [h, hLine, hDollar, Literal.bits?]
  | cons quote rest =>
    by_cases hQuote : quote = '\''
    · simp [h, hQuote, Literal.bits?, bits_eq d hc]
    · by_cases hDouble : quote = '"' ∧ d.on .doubleQuotedBits = true
      · simp [h, hDouble, Literal.bits?, bits_eq d hc]
      · simp [h, hZero, hLine, hDollar, hQuote, hDouble, Literal.bits?]

theorem literal?_x (h : c.toLower = 'x') : literal? d (c :: rest) =
    some ((Literal.hex? (c :: rest)).map (Match.inBytes (c :: rest))) := by
  obtain ⟨hc, hZero, hLine, hDollar⟩ := of_toLower (by decide) h
  rw [literal?_cons]
  cases rest with
  | nil => simp [h, hLine, hDollar, Literal.hex?]
  | cons quote rest =>
    by_cases hQuote : quote = '\''
    · simp [h, hQuote, Literal.hex?, hex_eq hc]
    · simp [h, hZero, hLine, hDollar, hQuote, Literal.hex?]

theorem literal?_e (h : c.toLower = 'e') : literal? d (c :: rest) =
    some ((Literal.escape? (c :: rest)).map (Match.inBytes (c :: rest))) := by
  obtain ⟨hc, hZero, hLine, hDollar⟩ := of_toLower (by decide) h
  rw [literal?_cons]
  cases rest with
  | nil => simp [h, hLine, hDollar, Literal.escape?]
  | cons quote rest =>
    by_cases hQuote : quote = '\''
    · simp [h, hQuote, Literal.escape?, introduced_one hc]
    · simp [h, hZero, hLine, hDollar, hQuote, Literal.escape?]

theorem literal?_n (h : c.toLower = 'n') : literal? d (c :: rest) =
    some ((Literal.national? d (c :: rest)).map (Match.inBytes (c :: rest))) := by
  obtain ⟨hc, hZero, hLine, hDollar⟩ := of_toLower (by decide) h
  rw [literal?_cons]
  cases rest with
  | nil => simp [h, hLine, hDollar, Literal.national?]
  | cons quote rest =>
    by_cases hQuote : quote = '\''
    · cases hOn : d.on .charsetStrings with
      | true => simp [h, hOn, hQuote, Literal.national?, introduced_one hc]
      | false => simp [h, hDollar, hOn, hQuote, Literal.national?]
    · simp [h, hZero, hLine, hDollar, hQuote, Literal.national?]

theorem literal?_line : literal? d ('_' :: rest) =
    some ((Literal.charset? d ('_' :: rest)).map (Match.inBytes ('_' :: rest))) := by
  rw [literal?_cons]
  cases hOn : d.on .charsetStrings with
  | true => simp [charset?_eq hOn]
  | false => simp [Literal.charset?, hOn]

theorem literal?_dollar : literal? d ('$' :: rest) =
    some ((Literal.dollar? d ('$' :: rest)).map (Match.inBytes ('$' :: rest))) := by
  rw [literal?_cons]
  cases hOn : d.on .dollarQuotes with
  | true => simp [dollar?_eq hOn]
  | false => simp [Literal.dollar?, hOn]

end Letters

/-- **No cut fails**, and what is found is the literal that is found character by character. -/
theorem literal?_eq (d : Dialect) (text : List Char) :
    literal? d text = some ((Literal.match? d text).map (Match.inBytes text)) := by
  cases text with
  | nil => rfl
  | cons c rest =>
    rw [Literal.match?_cons]
    split_ifs with hZero hb hx he hn hLine
    · subst hZero
      exact literal?_zero rest
    · exact literal?_b rest hb
    · exact literal?_x rest hx
    · exact literal?_e rest he
    · exact literal?_n rest hn
    · subst hLine
      exact literal?_line rest
    · by_cases hDollar : c = '$'
      · subst hDollar
        exact literal?_dollar rest
      · rw [literal?_cons]
        simp [hZero, hb, hx, he, hn, hLine, hDollar, Literal.dollar?]

end Bytewise

/-! ### Lengths -/

namespace Literal

open Verdict (accept reject)

/-- The verdicts on literals that are never closed. -/
def unterminated : List Verdict :=
  [reject .unterminatedString, reject .unterminatedDollarString]

/-- A literal that is never closed takes all of the text, and two characters at least; any other
takes at least three. -/
def Ends (text : List Char) (m : Match) : Prop :=
  (m.verdict ∈ unterminated ∧ m.length = text.length ∧ 2 ≤ text.length) ∨
    (m.verdict ∉ unterminated ∧ 3 ≤ m.length)

theorem Ends.all {text : List Char} {fault : Fault} (hFault : reject fault ∈ unterminated)
    (hText : 2 ≤ text.length) : Ends text (.reject fault text.length) :=
  Or.inl ⟨hFault, rfl, hText⟩

theorem Ends.closed {text : List Char} {verdict : Verdict} {n : Nat}
    (hVerdict : verdict ∉ unterminated) (hLength : 3 ≤ n) : Ends text ⟨n, verdict⟩ :=
  Or.inr ⟨hVerdict, hLength⟩

theorem bits_ends (d : Dialect) (quote c : Char) (rest : List Char) :
    Ends (c :: quote :: rest) (bits d quote (c :: quote :: rest)) := by
  unfold bits
  split
  · exact .all (by decide) (Nat.le_add_left 2 _)
  · next n hn =>
    have hLength : 3 ≤ n + 1 := Nat.succ_le_succ (body_le hn).1
    split
    · exact .closed (by decide) hLength
    · split <;> exact .closed (by decide) hLength

theorem hex_ends (quote c : Char) (rest : List Char) :
    Ends (c :: quote :: rest) (hex (c :: quote :: rest)) := by
  unfold hex
  split
  · exact .all (by decide) (Nat.le_add_left 2 _)
  · next n hn =>
    have hLength : 3 ≤ n + 1 := Nat.succ_le_succ (body_le hn).1
    split <;> exact .closed (by decide) hLength

theorem introduced_ends {introducer : Nat} (escapes : Bool) {text : List Char}
    (hIntroducer : 0 < introducer) (hText : 2 ≤ text.length) :
    Ends text (introduced introducer escapes text) := by
  unfold introduced
  split
  · exact .all (by decide) hText
  · next n hn =>
    have hRun := Quoted.length?_pos hn
    exact .closed (by decide) (by omega)

theorem dollar_ends {width : Nat} {text : List Char} (hWidth : 2 ≤ width)
    (hText : 2 ≤ text.length) : Ends text (dollar width text) := by
  unfold dollar
  split
  · exact .closed (by decide) (by omega)
  · exact .all (by decide) hText

theorem radix?_ends {text : List Char} {m : Match} (h : radix? text = some m) : Ends text m := by
  have hVerdict : m.verdict ∉ unterminated := by
    have hDigits : ∀ kind isDigit rest, digits? kind isDigit rest = some m →
        m.verdict ∉ unterminated := fun kind isDigit rest hm => by
      rw [(digits?_yields hm).2]
      simp [unterminated]
    unfold radix? at h
    split at h
    · split at h
      · exact hDigits _ _ _ h
      · split at h
        · exact hDigits _ _ _ h
        · cases h
    · cases h
  exact .closed hVerdict (two_lt_of_radix? h)

theorem bits?_ends {d : Dialect} {text : List Char} {m : Match} (h : bits? d text = some m) :
    Ends text m := by
  unfold bits? at h
  split at h
  · rw [Option.ite_none_right_eq_some, Option.some.injEq] at h
    rw [← h.2]
    exact bits_ends d _ _ _
  · cases h

theorem hex?_ends {text : List Char} {m : Match} (h : hex? text = some m) : Ends text m := by
  unfold hex? at h
  split at h
  · rw [Option.ite_none_right_eq_some, Option.some.injEq] at h
    rw [← h.2]
    exact hex_ends _ _ _
  · cases h

theorem escape?_ends {text : List Char} {m : Match} (h : escape? text = some m) :
    Ends text m := by
  unfold escape? at h
  split at h
  · rw [Option.ite_none_right_eq_some, Option.some.injEq] at h
    rw [← h.2]
    exact introduced_ends _ Nat.one_pos (Nat.le_add_left 2 _)
  · cases h

theorem national?_ends {d : Dialect} {text : List Char} {m : Match}
    (h : national? d text = some m) : Ends text m := by
  unfold national? at h
  split at h
  · rw [Option.ite_none_right_eq_some, Option.some.injEq] at h
    rw [← h.2]
    exact introduced_ends _ Nat.one_pos (Nat.le_add_left 2 _)
  · cases h

theorem charset?_ends {d : Dialect} {text : List Char} {m : Match} (h : charset? d text = some m) :
    Ends text m := by
  unfold charset? at h
  split at h
  · next rest =>
    rw [Option.ite_none_right_eq_some, Option.some.injEq, Bool.and_eq_true, Bool.and_eq_true,
      decide_eq_true_eq] at h
    obtain ⟨⟨⟨-, hName⟩, -⟩, rfl⟩ := h
    have hRest := Text.length_takeWhile_le Char.isAlphanum rest
    refine introduced_ends _ (Nat.succ_pos _) ?_
    rw [List.length_cons]
    omega
  · cases h

theorem dollar?_ends {d : Dialect} {text : List Char} {m : Match} (h : dollar? d text = some m) :
    Ends text m := by
  unfold dollar? at h
  split at h
  · next rest =>
    rw [Option.ite_none_right_eq_some, Option.map_eq_some_iff] at h
    obtain ⟨-, tag, hTag, rfl⟩ := h
    have hRest := tagLength?_lt hTag
    refine dollar_ends (Nat.le_add_left 2 tag) ?_
    rw [List.length_cons]
    omega
  · cases h

theorem match?_ends {d : Dialect} {text : List Char} {m : Match} (h : match? d text = some m) :
    Ends text m := by
  obtain ⟨r, hMem, hr⟩ := List.exists_of_findSome?_eq_some h
  revert r
  simp only [forms, List.forall_mem_cons, List.not_mem_nil, false_imp_iff, implies_true, and_true]
  exact ⟨radix?_ends, bits?_ends, hex?_ends, escape?_ends, national?_ends, charset?_ends,
    dollar?_ends⟩

/-- What is known of the length of a literal, in bytes. -/
structure Fits (text : List Char) (m : Match) : Prop where
  verdict : m.verdict ∈ verdicts
  length : if m.verdict ∈ unterminated then m.length = byteLength text ∧ 2 ≤ m.length
    else 3 ≤ m.length ∧ m.length ≤ byteLength text
  boundary : Text.IsBoundary text m.length
  /-- Going on by that many bytes from a place in a source never meets its end too early. -/
  clamp : ∀ before, min (byteLength before + m.length) (byteLength (before ++ text)) =
    byteLength before + m.length
  /-- Going on one character after the other stops there. -/
  walk : byteLength (Text.takeBytes m.length text) = m.length

theorem fits_of_match? {d : Dialect} {text : List Char} {m : Match} (h : match? d text = some m) :
    Fits text (m.inBytes text) := by
  obtain ⟨hLe, hVerdict⟩ := match?_yields d text m h
  obtain ⟨taken, after, hText, hTaken⟩ : ∃ taken after, text = taken ++ after ∧
      text.take m.length = taken :=
    ⟨_, _, (List.take_append_drop m.length text).symm, rfl⟩
  have hLength : (m.inBytes text).length = byteLength taken := by
    rw [← hTaken]
    rfl
  have hCount : m.length = taken.length := by
    rw [← hTaken, List.length_take, Nat.min_eq_left hLe]
  have hBytes := Text.length_le_byteLength taken
  have hSum : byteLength text = byteLength taken + byteLength after := by
    rw [hText, Text.byteLength_append]
  constructor
  · exact hVerdict
  · rw [hLength]
    show if m.verdict ∈ unterminated then _ else _
    rcases match?_ends h with ⟨hUnterminated, hAll, hTwo⟩ | ⟨hClosed, hThree⟩
    · rw [if_pos hUnterminated]
      have hWhole : taken = text := by rw [← hTaken, hAll, List.take_length]
      rw [hWhole]
      exact ⟨rfl, Nat.le_trans hTwo (Text.length_le_byteLength text)⟩
    · rw [if_neg hClosed]
      omega
  · rw [hLength, hText]
    exact Text.isBoundary_append taken after
  · intro before
    rw [hLength, Text.byteLength_append]
    omega
  · rw [hLength, hText, Text.takeBytes_append]

end Literal

/-- **Literals lie in the text.**  Reading a literal byte by byte, no slice is out of range or cuts
a character in two, and what is found is the literal found character by character, measured in
bytes.  It has three bytes at least, or two if it is never closed and takes all of the text, and
it ends between two characters of the text. -/
theorem literal_fits (d : Dialect) (text : List Char) :
    ∃ found, Bytewise.literal? d text = some found ∧
      found = (Literal.match? d text).map (Match.inBytes text) ∧
      ∀ m, found = some m → Literal.Fits text m := by
  refine ⟨_, Bytewise.literal?_eq d text, rfl, fun m hm => ?_⟩
  obtain ⟨n, hn, rfl⟩ := Option.map_eq_some_iff.1 hm
  exact Literal.fits_of_match? hn

/-- A bit literal with a character of two bytes in it, which is no binary digit. -/
theorem literal_fits_malformedBits :
    Bytewise.literal? Preset.standard.rules "b'é' x".toList =
        some (some (.reject .malformedBits 5)) ∧
      Literal.Fits "b'é' x".toList (.reject .malformedBits 5) := by
  obtain ⟨found, hFound, hMatch, hFits⟩ := literal_fits Preset.standard.rules "b'é' x".toList
  have hBytes : (Literal.match? Preset.standard.rules "b'é' x".toList).map
      (Match.inBytes "b'é' x".toList) = some (.reject .malformedBits 5) := by decide +kernel
  rw [hBytes] at hMatch
  rw [hFound, hMatch]
  exact ⟨rfl, hFits _ hMatch⟩

end SqlTemplate
