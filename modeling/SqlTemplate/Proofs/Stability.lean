import SqlTemplate.Proofs.Exchange
import SqlTemplate.Proofs.RegionBody

/-!
# Lexemes before a seam

A text `u ++ s` is read, and then `s` gives way to `s'`.  This file says when the
lexeme at the head of the text stays the same.  `Seam` says of the three texts
that no mark of two characters forms where they meet, and `Fits` says of a kind
and a length that such a lexeme lies before the seam and does not end by what
stands after it.  What has to be asked for is in the fields of the two:

* a variable without a name takes a closed quoted run after it as its name, so
  that no quote may follow it;
* an operator that ends in two dashes and is cut off there is a line comment;
* a word is a name if a dot follows it;
* the quote of a quoted region is told from the quote of a string by looking for
  a placeholder, as far ahead as it takes.

`Recogniser.StableAt` is the property that goes through the forms of lexemes one
by one, and `Lexeme.next_stable` is what they give for one step of reading.
-/

namespace SqlTemplate

open Verdict (accept reject)

/-- Whether the text starts with a quote that can enclose the name of a special
variable. -/
def Text.startsQuote : List Char → Bool
  | [] => false
  | c :: _ => c == '\'' || c == '"' || c == '\x60'

/-- After `u` the text `s` gives way to `s'`, and no mark forms across the
seam. -/
structure Seam (u s s' : List Char) : Prop where
  exchange : Exchange s s'
  nonempty : u ≠ []
  brace : s'.head? = some '{' → u ≠ ['{']
  dashes : s' = [] → u ≠ ['-', '-']

/-- A lexeme of this kind that takes `n` characters of `u ++ s` lies before the
seam and stays the same when `s` gives way to `s'`. -/
structure Fits (u s s' : List Char) (kind : TokenKind) (n : Nat) : Prop where
  le : n ≤ u.length
  whole : s' = [] → n = u.length
  not_regionQuote : kind ≠ .regionQuote
  named : kind = .specialVariable → s' ≠ [] → n = Symbol.sigilLength (u ++ s) →
    Text.startsQuote ((u ++ s).drop n) = false
  dashes : kind = .operator → s' = [] → ¬['-', '-'] <:+ u
  word : kind = .identifier → s' ≠ []

namespace Recogniser

/-- What is not found, and what is accepted before the seam, stays so when the
text after the seam is exchanged. -/
def StableAt (r : Recogniser) (u s s' : List Char) : Prop :=
  (r (u ++ s) = none → r (u ++ s') = none) ∧
    ∀ kind n, Fits u s s' kind n → r (u ++ s) = some (.accept kind n) →
      r (u ++ s') = some (.accept kind n)

namespace StableAt

variable {r : Recogniser} {u s s' : List Char}

theorem of_eq (h : r (u ++ s') = r (u ++ s)) : StableAt r u s s' := by
  unfold StableAt
  rw [h]
  exact ⟨fun hNone => hNone, fun _ _ _ hFound => hFound⟩

/-- A recogniser that goes ahead on a condition. -/
theorem of_guard (guard : List Char → Bool) (found : List Char → Match)
    (hr : ∀ text, r text = if guard text then some (found text) else none)
    (hBack : guard (u ++ s') = true → guard (u ++ s) = true)
    (hFound : ∀ kind n, guard (u ++ s) = true → Fits u s s' kind n →
      found (u ++ s) = .accept kind n → guard (u ++ s') = true ∧ found (u ++ s') = .accept kind n) :
    StableAt r u s s' := by
  refine ⟨fun hNone => ?_, fun kind n hFits hAccept => ?_⟩
  · rw [hr, ite_eq_right_iff] at hNone
    rw [hr, if_neg]
    intro hGuard
    exact absurd (hNone (hBack hGuard)) (Option.some_ne_none _)
  · rw [hr, Option.ite_none_right_eq_some, Option.some.injEq] at hAccept
    obtain ⟨hGuard, hMatch⟩ := hFound kind n hAccept.1 hFits hAccept.2
    rw [hr, if_pos hGuard, hMatch]

/-- A recogniser that goes ahead by the first character. -/
theorem of_head (hu : u ≠ []) (p : Char → Bool) (found : List Char → Match)
    (hr : ∀ c rest, r (c :: rest) = if p c then some (found (c :: rest)) else none)
    (hFound : ∀ kind n, u.head?.any p = true → Fits u s s' kind n →
      found (u ++ s) = .accept kind n → found (u ++ s') = .accept kind n) :
    StableAt r u s s' := by
  obtain ⟨c, v, rfl⟩ := List.exists_cons_of_ne_nil hu
  rw [StableAt, List.cons_append, List.cons_append, hr, hr]
  cases hp : p c with
  | false => exact ⟨fun _ => rfl, fun _ _ _ hAccept => by cases hAccept⟩
  | true =>
    refine ⟨fun hNone => (by cases hNone), fun kind n hFits hAccept => ?_⟩
    rw [if_pos rfl, Option.some.injEq] at hAccept
    rw [if_pos rfl, Option.some.injEq]
    exact hFound kind n hp hFits hAccept

/-- A recogniser that goes ahead by the first two characters, the second of which
is no brace, and then takes both. -/
theorem of_pair (hE : Exchange s s') (hu : u ≠ []) (p : Char → Char → Bool)
    (found : Char → Char → List Char → Match) (hOne : ∀ c, r [c] = none)
    (hr : ∀ a b rest, r (a :: b :: rest) = if p a b then some (found a b rest) else none)
    (hBrace : ∀ a, p a '{' = false)
    (hTwo : ∀ a b rest kind n, found a b rest = .accept kind n → 2 ≤ n)
    (hFound : ∀ a b v kind n, b ≠ '{' → n ≤ v.length + 2 → found a b (v ++ s) = .accept kind n →
      found a b (v ++ s') = .accept kind n) :
    StableAt r u s s' := by
  match u with
  | [] => exact absurd rfl hu
  | [a] =>
    refine ⟨fun hNone => ?_, fun kind n hFits hAccept => ?_⟩
    · cases s' with
      | nil => exact hOne a
      | cons b t =>
        rw [List.singleton_append, hr, if_neg]
        intro hp
        have hHead := hE.any_head (p := p a) (fun h => by rw [hBrace] at h; cases h) hp
        cases s with
        | nil => cases hHead
        | cons c t =>
          have hc : p a c = true := hHead
          rw [List.singleton_append, hr, if_pos hc] at hNone
          cases hNone
    · have hShort := hFits.le
      rw [List.length_singleton] at hShort
      cases s with
      | nil =>
        rw [List.append_nil, hOne] at hAccept
        cases hAccept
      | cons c t =>
        rw [List.singleton_append, hr, Option.ite_none_right_eq_some, Option.some.injEq] at hAccept
        have hLong := hTwo _ _ _ _ _ hAccept.2
        omega
  | a :: b :: v =>
    simp only [StableAt, List.cons_append, hr]
    cases hp : p a b with
    | false => exact ⟨fun _ => rfl, fun _ _ _ hAccept => by cases hAccept⟩
    | true =>
      refine ⟨fun hNone => (by cases hNone), fun kind n hFits hAccept => ?_⟩
      have hb : b ≠ '{' := by
        rintro rfl
        rw [hBrace] at hp
        cases hp
      rw [if_pos rfl, Option.some.injEq] at hAccept
      rw [if_pos rfl, Option.some.injEq]
      exact hFound a b v kind n hb hFits.le hAccept

theorem firstOf {forms : List Recogniser} (h : ∀ r ∈ forms, StableAt r u s s') :
    StableAt (Recogniser.firstOf forms) u s s' := by
  induction forms with
  | nil => exact of_eq rfl
  | cons r forms ih =>
    have hHead := h r List.mem_cons_self
    have hRest := ih fun q hq => h q (List.mem_cons_of_mem r hq)
    simp only [StableAt, Recogniser.firstOf, List.findSome?_cons] at hRest ⊢
    cases hr : r (u ++ s) with
    | none =>
      rw [hHead.1 hr]
      exact hRest
    | some found =>
      refine ⟨fun hNone => (by cases hNone), fun kind n hFits hAccept => ?_⟩
      cases hAccept
      rw [hHead.2 kind n hFits hr]

end StableAt

end Recogniser

variable {u s s' : List Char} {d : Dialect}

/-! ### Placeholders and comments -/

namespace Placeholder

theorem match?_exchange {n : Nat} (h : match? d (u ++ s) = some (.accept .placeholder n))
    (hn : n ≤ u.length) (s' : List Char) :
    match? d (u ++ s') = some (.accept .placeholder n) := by
  have hTake : (u.take n).length = n := by rw [List.length_take, Nat.min_eq_left hn]
  have hSplit : ∀ t, u ++ t = u.take n ++ (u.drop n ++ t) := by
    intro t
    rw [← List.append_assoc, List.take_append_drop]
  rw [hSplit] at h ⊢
  have hWhole := match?_append_iff (d := d) (p := u.take n)
  rw [hTake] at hWhole
  rw [hWhole] at h ⊢
  exact h

theorem match?_stable (hSeam : Seam u s s') : Recogniser.StableAt (match? d) u s s' := by
  have hOpen : startsOpen (u ++ s') = true → startsOpen (u ++ s) = true :=
    Brackets.startsWith_exchange hSeam.nonempty hSeam.brace
  refine ⟨fun hNone => ?_, fun kind n hFits hAccept => ?_⟩
  · simp only [match?, ite_eq_right_iff, reduceCtorEq, imp_false] at hNone ⊢
    exact fun hNew => hNone (hOpen hNew)
  · have hVerdict := (match?_yields d _ _ hAccept).2
    obtain rfl : kind = .placeholder := by
      simpa [verdicts] using hVerdict
    exact match?_exchange hAccept hFits.le s'

theorem unmatchedClose?_stable (hSeam : Seam u s s') :
    Recogniser.StableAt unmatchedClose? u s s' := by
  refine .of_guard startsClose (fun _ => .reject .unmatchedPlaceholderClose 2) (fun _ => rfl) ?_ ?_
  · refine Brackets.startsWith_exchange hSeam.nonempty fun hHead => ?_
    have hNone := hSeam.exchange.any_head_eq_false (p := (· == '}')) (by decide)
    rw [hHead] at hNone
    cases hNone
  · intro kind n _ _ hReject
    cases congrArg Match.verdict hReject

end Placeholder

namespace Comment

theorem line?_stable (hSeam : Seam u s s') : Recogniser.StableAt (line? d) u s s' := by
  refine .of_guard (startsLine d)
    (fun text => .accept .lineComment (text.takeWhile (· != '\n')).length) (fun _ => rfl) ?_ ?_
  · exact startsLine_exchange d hSeam.exchange hSeam.nonempty hSeam.dashes
  · intro kind n hStart hFits hAccept
    cases hAccept
    have hLine : ('{' != '\n') = true → ∀ c, Text.isNameStart c = true → (c != '\n') = true :=
      fun _ c hc => by simpa using (Text.ne_of_isNameStart hc).1
    refine ⟨startsLine_of_run d hSeam.exchange hSeam.nonempty hStart hFits.le, ?_⟩
    rw [takeWhile_exchange hSeam.exchange hLine hFits.le]

theorem block?_stable (hSeam : Seam u s s') : Recogniser.StableAt block? u s s' := by
  refine .of_guard startsBlock
    (fun text => (Brackets.comment.close? 0 (text.drop 2)).elim
      (.reject .unterminatedBlockComment text.length) fun n => .accept .blockComment (n + 2)) ?_
    (startsBlock_exchange hSeam.exchange hSeam.nonempty) ?_
  · intro text
    rw [block?]
    cases Brackets.comment.close? 0 (text.drop 2) <;> rfl
  · intro kind n hStart hFits hAccept
    have hLe := hFits.le
    cases hClose : Brackets.comment.close? 0 ((u ++ s).drop 2) with
    | none =>
      simp only [hClose, Option.elim_none] at hAccept
      cases congrArg Match.verdict hAccept
    | some k =>
      simp only [hClose, Option.elim_some] at hAccept
      cases hAccept
      have hTwo : 2 ≤ u.length := by omega
      rw [List.drop_append_of_le_length hTwo] at hClose
      have hNew := Brackets.close?_swap hClose (by rw [List.length_drop]; omega) s'
      refine ⟨?_, ?_⟩
      · obtain _ | ⟨a, _ | ⟨b, v⟩⟩ := u
        · cases hTwo
        · simp at hTwo
        · exact hStart
      · simp only [List.drop_append_of_le_length hTwo, hNew, Option.elim_some]

end Comment

/-! ### Literals with an introducer -/

namespace Literal

theorem digits?_exchange (hE : Exchange s s') {kind : TokenKind} {isDigit : Char → Bool}
    (hBrace : isDigit '{' = false) {v : List Char}
    (h : ((v ++ s).takeWhile isDigit).length ≤ v.length) :
    digits? kind isDigit (v ++ s') = digits? kind isDigit (v ++ s) := by
  have hRun := takeWhile_exchange hE (fun hDigit => by rw [hBrace] at hDigit; cases hDigit) h
  simp only [digits?, hRun]

theorem digits?_stable (hE : Exchange s s') (kind : TokenKind) {isDigit : Char → Bool}
    (hBrace : isDigit '{' = false) (v : List Char) :
    (digits? kind isDigit (v ++ s) = none → digits? kind isDigit (v ++ s') = none) ∧
      ∀ found n, n ≤ v.length + 2 → digits? kind isDigit (v ++ s) = some (.accept found n) →
        digits? kind isDigit (v ++ s') = some (.accept found n) := by
  refine ⟨fun hNone => ?_, fun found n hn hAccept => ?_⟩
  · rw [digits?_exchange hE hBrace ?_, hNone]
    simp only [digits?, ite_eq_right_iff, reduceCtorEq, imp_false] at hNone
    omega
  · rw [digits?_exchange hE hBrace ?_, hAccept]
    simp only [digits?, Option.ite_none_right_eq_some, Option.some.injEq, Match.accept,
      Match.mk.injEq] at hAccept
    omega

theorem two_lt_of_radix? {text : List Char} {m : Match} (h : radix? text = some m) :
    2 < m.length := by
  have hDigits : ∀ kind isDigit rest, digits? kind isDigit rest = some m → 2 < m.length := by
    intro kind isDigit rest h
    simp only [digits?, Option.ite_none_right_eq_some, Option.some.injEq] at h
    obtain ⟨hPos, rfl⟩ := h
    exact Nat.lt_add_of_pos_left hPos
  unfold radix? at h
  split at h
  · split at h
    · exact hDigits _ _ _ h
    · split at h
      · exact hDigits _ _ _ h
      · cases h
  · cases h

theorem radix?_stable (hSeam : Seam u s s') : Recogniser.StableAt radix? u s s' := by
  match u, hSeam.nonempty with
  | [a], _ =>
    refine ⟨fun _ => ?_, fun kind n hFits hAccept => ?_⟩
    · have hBinary := hSeam.exchange.any_head_eq_false (p := (·.toLower == 'b')) (by decide)
      have hHex := hSeam.exchange.any_head_eq_false (p := (·.toLower == 'x')) (by decide)
      cases s' with
      | nil => by_cases ha : a = '0' <;> simp [radix?, ha]
      | cons c t =>
        rw [List.head?_cons, Option.any_some] at hBinary hHex
        by_cases ha : a = '0' <;> simp [radix?, ha, hBinary, hHex]
    · have hLong := two_lt_of_radix? hAccept
      have hShort := hFits.le
      rw [Match.accept_length] at hLong
      rw [List.length_singleton] at hShort
      omega
  | a :: b :: v, _ =>
    by_cases ha : a = '0'
    · subst ha
      have hBits := digits?_stable hSeam.exchange .bits (by decide : isBinaryDigit '{' = false) v
      have hHex := digits?_stable hSeam.exchange .number (by decide : isHexDigit '{' = false) v
      simp only [Recogniser.StableAt, List.cons_append, radix?]
      split
      · exact ⟨hBits.1, fun kind n hFits => hBits.2 kind n hFits.le⟩
      · split
        · exact ⟨hHex.1, fun kind n hFits => hHex.2 kind n hFits.le⟩
        · exact ⟨fun _ => rfl, fun _ _ _ hAccept => by cases hAccept⟩
    · exact .of_eq (by simp [radix?, ha])

theorem exists_of_bits {quote : Char} {text : List Char} {kind : TokenKind} {n : Nat}
    (h : bits d quote text = .accept kind n) :
    ∃ k, Quoted.length? quote (d.on .bitsAsBytes && d.on .backslashEscapes) text.tail = some k ∧
      n = k + 1 := by
  unfold bits at h
  split at h
  · cases congrArg Match.verdict h
  · next k hk =>
    refine ⟨k, hk, (congrArg Match.length h).symm.trans ?_⟩
    split
    · rfl
    · split <;> rfl

theorem bits_exchange (hE : Exchange s s') {quote a b : Char} (hQuote : quote ≠ '{')
    {v : List Char} {kind : TokenKind} {n : Nat} (hn : n ≤ v.length + 2)
    (h : bits d quote (a :: b :: (v ++ s)) = .accept kind n) :
    bits d quote (a :: b :: (v ++ s')) = .accept kind n := by
  obtain ⟨k, hk, rfl⟩ := exists_of_bits h
  rw [List.tail_cons] at hk
  have hNew := Quoted.length?_exchange (u := b :: v) hE hQuote (List.cons_ne_nil b v) hk
    (Nat.le_of_succ_le_succ hn)
  have hTake := take_introduced a b (Nat.le_of_succ_le hn)
  rw [List.cons_append] at hNew
  simp only [bits, List.tail_cons, hk, hTake] at h
  simp only [bits, List.tail_cons, hNew, hTake]
  exact h

theorem bits?_stable (hSeam : Seam u s s') : Recogniser.StableAt (bits? d) u s s' := by
  refine .of_pair hSeam.exchange hSeam.nonempty
    (fun a b => a.toLower == 'b' && (b == '\'' || (b == '"' && d.on .doubleQuotedBits)))
    (fun a b rest => bits d b (a :: b :: rest)) (fun _ => rfl) (fun _ _ _ => rfl) ?_ ?_ ?_
  · exact fun a => by simp
  · intro a b rest kind n hAccept
    obtain ⟨k, hk, rfl⟩ := exists_of_bits hAccept
    have := Quoted.length?_pos hk
    omega
  · exact fun a b v kind n hb hn => bits_exchange hSeam.exchange hb hn

theorem exists_of_hex {text : List Char} {kind : TokenKind} {n : Nat}
    (h : hex text = .accept kind n) :
    ∃ k, Quoted.length? '\'' false text.tail = some k ∧ n = k + 1 := by
  unfold hex at h
  split at h
  · cases congrArg Match.verdict h
  · next k hk =>
    refine ⟨k, hk, (congrArg Match.length h).symm.trans ?_⟩
    split <;> rfl

theorem hex_exchange (hE : Exchange s s') {a b : Char} {v : List Char} {kind : TokenKind} {n : Nat}
    (hn : n ≤ v.length + 2) (h : hex (a :: b :: (v ++ s)) = .accept kind n) :
    hex (a :: b :: (v ++ s')) = .accept kind n := by
  obtain ⟨k, hk, rfl⟩ := exists_of_hex h
  rw [List.tail_cons] at hk
  have hNew := Quoted.length?_exchange (u := b :: v) hE (by decide) (List.cons_ne_nil b v) hk
    (Nat.le_of_succ_le_succ hn)
  have hTake := take_introduced a b (Nat.le_of_succ_le hn)
  rw [List.cons_append] at hNew
  simp only [hex, List.tail_cons, hk, hTake] at h
  simp only [hex, List.tail_cons, hNew, hTake]
  exact h

theorem hex?_stable (hSeam : Seam u s s') : Recogniser.StableAt hex? u s s' := by
  refine .of_pair hSeam.exchange hSeam.nonempty (fun a b => b == '\'' && a.toLower == 'x')
    (fun a b rest => hex (a :: b :: rest)) (fun _ => rfl) ?_ ?_ ?_ ?_
  · intro a b rest
    by_cases hb : b = '\'' <;> simp [hex?, hb]
  · exact fun a => rfl
  · intro a b rest kind n hAccept
    obtain ⟨k, hk, rfl⟩ := exists_of_hex hAccept
    have := Quoted.length?_pos hk
    omega
  · exact fun a b v kind n _ hn => hex_exchange hSeam.exchange hn

theorem exists_of_introduced {introducer : Nat} {escapes : Bool} {text : List Char}
    {kind : TokenKind} {n : Nat} (h : introduced introducer escapes text = .accept kind n) :
    ∃ k, Quoted.length? '\'' escapes (text.drop introducer) = some k ∧ kind = .string ∧
      n = introducer + k := by
  unfold introduced at h
  split at h
  · cases congrArg Match.verdict h
  · next k hk =>
    cases h
    exact ⟨k, hk, rfl, rfl⟩

theorem introduced_exchange (hE : Exchange s s') {introducer : Nat} {escapes : Bool}
    {kind : TokenKind} {n : Nat} (hn : n ≤ u.length)
    (h : introduced introducer escapes (u ++ s) = .accept kind n) :
    introduced introducer escapes (u ++ s') = .accept kind n := by
  obtain ⟨k, hk, rfl, rfl⟩ := exists_of_introduced h
  have hPos := Quoted.length?_pos hk
  have hLe : introducer ≤ u.length := by omega
  rw [List.drop_append_of_le_length hLe] at hk
  have hNe : u.drop introducer ≠ [] := List.length_pos_iff.1 (by rw [List.length_drop]; omega)
  have hNew := Quoted.length?_exchange hE (by decide) hNe hk (by rw [List.length_drop]; omega)
  rw [introduced, List.drop_append_of_le_length hLe, hNew]

/-- A string with an introducer of one letter. -/
theorem introduced_stable (hSeam : Seam u s s') {r : Recogniser} (escapes : Bool)
    (p : Char → Bool) (hOne : ∀ c, r [c] = none)
    (hr : ∀ a b rest, r (a :: b :: rest) =
      if b == '\'' && p a then some (introduced 1 escapes (a :: b :: rest)) else none) :
    Recogniser.StableAt r u s s' := by
  refine .of_pair hSeam.exchange hSeam.nonempty (fun a b => b == '\'' && p a)
    (fun a b rest => introduced 1 escapes (a :: b :: rest)) hOne hr ?_ ?_ ?_
  · exact fun a => rfl
  · intro a b rest kind n hAccept
    obtain ⟨k, hk, _, rfl⟩ := exists_of_introduced hAccept
    have := Quoted.length?_pos hk
    omega
  · exact fun a b v kind n _ hn => introduced_exchange (u := a :: b :: v) hSeam.exchange hn

theorem escape?_stable (hSeam : Seam u s s') : Recogniser.StableAt escape? u s s' := by
  refine introduced_stable hSeam true (·.toLower == 'e') (fun _ => rfl) ?_
  intro a b rest
  by_cases hb : b = '\'' <;> simp [escape?, hb]

theorem national?_stable (hSeam : Seam u s s') : Recogniser.StableAt (national? d) u s s' := by
  refine introduced_stable hSeam (d.on .backslashEscapes)
    (fun a => a.toLower == 'n' && d.on .charsetStrings) (fun _ => rfl) ?_
  intro a b rest
  by_cases hb : b = '\'' <;> simp [national?, hb]

/-- The length of the name of a character set. -/
def charsetLength (text : List Char) : Nat := (text.takeWhile Char.isAlphanum).length

theorem charset?_eq (rest : List Char) : charset? d ('_' :: rest) =
    if d.on .charsetStrings && 2 ≤ charsetLength rest &&
        (rest.drop (charsetLength rest)).head? == some '\'' then
      some (introduced (charsetLength rest + 1) (d.on .backslashEscapes) ('_' :: rest))
    else none := rfl

theorem charset?_stable (hSeam : Seam u s s') : Recogniser.StableAt (charset? d) u s s' := by
  obtain ⟨a, v, rfl⟩ := List.exists_cons_of_ne_nil hSeam.nonempty
  by_cases ha : a = '_'
  · subst ha
    refine ⟨fun hNone => ?_, fun kind n hFits hAccept => ?_⟩
    · rw [List.cons_append, charset?_eq, ite_eq_right_iff] at hNone
      rw [List.cons_append, charset?_eq, if_neg]
      intro hGuard
      rw [Bool.and_eq_true, beq_iff_eq] at hGuard
      obtain ⟨hRun, hHead⟩ := run_head_exchange hSeam.exchange (by decide) (by decide) hGuard.2
      refine absurd (hNone ?_) (Option.some_ne_none _)
      rw [Bool.and_eq_true, beq_iff_eq]
      refine ⟨?_, hHead⟩
      rw [charsetLength, hRun]
      exact hGuard.1
    · rw [List.cons_append, charset?_eq, Option.ite_none_right_eq_some,
        Option.some.injEq] at hAccept
      obtain ⟨hGuard, hString⟩ := hAccept
      have hLe := hFits.le
      have hShort : charsetLength (v ++ s) < v.length := by
        obtain ⟨k, hk, _, rfl⟩ := exists_of_introduced hString
        have := Quoted.length?_pos hk
        rw [List.length_cons] at hLe
        omega
      obtain ⟨hRun, hHead⟩ := run_head_keep hSeam.exchange (by decide) hShort
      have hSame : charsetLength (v ++ s') = charsetLength (v ++ s) := congrArg List.length hRun
      rw [← charsetLength] at hHead
      rw [List.cons_append, charset?_eq, hSame, hHead, if_pos hGuard]
      exact congrArg some (introduced_exchange (u := '_' :: v) hSeam.exchange hLe hString)
  · exact .of_eq (by simp [charset?, ha])

theorem tagLength?_cons {a : Char} (ha : a ≠ '$') (rest : List Char) :
    tagLength? (a :: rest) =
      if Text.isWordStart a &&
          ((a :: rest).drop (Text.wordRun (a :: rest))).head? == some '$' then
        some (Text.wordRun (a :: rest)) else none := by
  simp [tagLength?, ha, Text.startsWord]

/-- A tag that is there after the exchange was there before. -/
theorem tagLength?_exchange (hE : Exchange s s') {v : List Char} {n : Nat}
    (h : tagLength? (v ++ s') = some n) : tagLength? (v ++ s) = some n := by
  cases v with
  | nil =>
    have hNone : tagLength? s' = none := by
      cases hE with
      | cut => rfl
      | same hc => rcases hc with rfl | rfl <;> rfl
      | opener => rfl
    rw [List.nil_append, hNone] at h
    cases h
  | cons a v =>
    by_cases ha : a = '$'
    · subst ha
      exact h
    · rw [List.cons_append, tagLength?_cons ha, Option.ite_none_right_eq_some, Bool.and_eq_true,
        beq_iff_eq, ← List.cons_append] at h
      obtain ⟨hRun, hHead⟩ := run_head_exchange hE (by decide +kernel) (by decide) h.1.2
      have hSame : Text.wordRun (a :: v ++ s) = Text.wordRun (a :: v ++ s') :=
        congrArg List.length hRun
      rw [List.cons_append, tagLength?_cons ha, ← List.cons_append, if_pos, hSame, h.2]
      rw [Bool.and_eq_true, beq_iff_eq]
      exact ⟨h.1.1, hHead⟩

/-- A tag before the exchanged text is still there. -/
theorem tagLength?_keep (hE : Exchange s s') {v : List Char} {n : Nat} (hn : n < v.length)
    (h : tagLength? (v ++ s) = some n) : tagLength? (v ++ s') = some n := by
  cases v with
  | nil => cases hn
  | cons a v =>
    by_cases ha : a = '$'
    · subst ha
      exact h
    · rw [List.cons_append, tagLength?_cons ha, Option.ite_none_right_eq_some, Option.some.injEq,
        ← List.cons_append] at h
      obtain ⟨hGuard, rfl⟩ := h
      obtain ⟨hRun, hHead⟩ := run_head_keep hE (by decide +kernel) hn
      have hSame : Text.wordRun (a :: v ++ s') = Text.wordRun (a :: v ++ s) :=
        congrArg List.length hRun
      rw [← Text.wordRun] at hHead
      rw [List.cons_append, tagLength?_cons ha, ← List.cons_append, hSame, hHead, if_pos hGuard]

theorem exists_of_dollar {width : Nat} {text : List Char} {kind : TokenKind} {n : Nat}
    (h : dollar width text = .accept kind n) :
    ∃ k, Text.indexOf? (text.take width) (text.drop width) = some k ∧ kind = .string ∧
      n = width + k + width := by
  unfold dollar at h
  split at h
  · next k hk =>
    cases h
    exact ⟨k, hk, rfl, rfl⟩
  · cases congrArg Match.verdict h

theorem dollar_exchange {width : Nat} {kind : TokenKind} {n : Nat} (hn : n ≤ u.length)
    (h : dollar width (u ++ s) = .accept kind n) (s' : List Char) :
    dollar width (u ++ s') = .accept kind n := by
  obtain ⟨k, hk, rfl, rfl⟩ := exists_of_dollar h
  have hLe : width ≤ u.length := by omega
  rw [List.drop_append_of_le_length hLe, List.take_append_of_le_length hLe] at hk
  have hNew := Text.indexOf?_swap hk
    (by rw [List.length_drop, List.length_take, Nat.min_eq_left hLe]; omega) s'
  rw [dollar, List.drop_append_of_le_length hLe, List.take_append_of_le_length hLe, hNew]

theorem dollar?_stable (hSeam : Seam u s s') : Recogniser.StableAt (dollar? d) u s s' := by
  obtain ⟨a, v, rfl⟩ := List.exists_cons_of_ne_nil hSeam.nonempty
  by_cases ha : a = '$'
  · subst ha
    simp only [Recogniser.StableAt, List.cons_append, dollar?]
    cases d.on .dollarQuotes with
    | false => exact ⟨fun _ => rfl, fun _ _ _ hAccept => by cases hAccept⟩
    | true =>
      simp only [if_true, Option.map_eq_none_iff, Option.map_eq_some_iff]
      refine ⟨fun hNone => ?_, ?_⟩
      · cases hTag : tagLength? (v ++ s') with
        | none => rfl
        | some n =>
          rw [tagLength?_exchange hSeam.exchange hTag] at hNone
          cases hNone
      · rintro kind n hFits ⟨tag, hTag, hString⟩
        have hLe := hFits.le
        refine ⟨tag, tagLength?_keep hSeam.exchange ?_ hTag,
          dollar_exchange (u := '$' :: v) hLe hString s'⟩
        obtain ⟨k, _, _, rfl⟩ := exists_of_dollar hString
        rw [List.length_cons] at hLe
        omega
  · exact .of_eq (by simp [dollar?, ha])

theorem match?_stable (hSeam : Seam u s s') : Recogniser.StableAt (match? d) u s s' := by
  apply Recogniser.StableAt.firstOf
  simp only [forms, List.forall_mem_cons, List.not_mem_nil, false_imp_iff, implies_true, and_true]
  exact ⟨radix?_stable hSeam, bits?_stable hSeam, hex?_stable hSeam, escape?_stable hSeam,
    national?_stable hSeam, charset?_stable hSeam, dollar?_stable hSeam⟩

end Literal

/-! ### Plain lexemes -/

namespace Symbol

theorem whitespace?_stable (hSeam : Seam u s s') : Recogniser.StableAt whitespace? u s s' := by
  refine .of_head hSeam.nonempty Text.isSpace
    (fun text => .accept .whitespace (Text.spaceRun text)) (fun _ _ => rfl) ?_
  intro kind n _ hFits hAccept
  cases hAccept
  rw [Text.spaceRun, takeWhile_exchange hSeam.exchange (fun hBrace => absurd hBrace (by decide))
    hFits.le, Text.spaceRun]

theorem delimited_exchange (hE : Exchange s s') {quote : Char} (hQuote : quote ≠ '{')
    {escapes : Bool} {kind found : TokenKind} {unclosed : Fault} {n : Nat} (hu : u ≠ [])
    (hn : n ≤ u.length) (h : delimited quote escapes kind unclosed (u ++ s) = .accept found n) :
    delimited quote escapes kind unclosed (u ++ s') = .accept found n := by
  unfold delimited at h
  split at h
  · next k hk =>
    cases h
    rw [delimited, Quoted.length?_exchange hE hQuote hu hk hn]
  · cases congrArg Match.verdict h

theorem string?_stable (hSeam : Seam u s s') : Recogniser.StableAt (string? d) u s s' := by
  refine .of_head hSeam.nonempty (fun c => c == '"' && d.on .doubleQuotedStrings)
    (delimited '"' (d.on .backslashEscapes) .string .unterminatedString) ?_ ?_
  · intro c rest
    by_cases hc : c = '"' <;> simp [string?, hc]
  · exact fun kind n _ hFits =>
      delimited_exchange hSeam.exchange (by decide) hSeam.nonempty hFits.le

theorem quotedIdentifier?_stable (hd : d.Valid) (hSeam : Seam u s s') :
    Recogniser.StableAt (quotedIdentifier? d) u s s' := by
  obtain ⟨c, v, rfl⟩ := List.exists_cons_of_ne_nil hSeam.nonempty
  refine .of_head hSeam.nonempty d.isIdentifierQuote
    (fun text => delimited (text.headD '"') false .quotedIdentifier .unterminatedQuotedIdentifier
      text) (fun _ _ => rfl) ?_
  intro kind n hQuote hFits
  refine delimited_exchange hSeam.exchange ?_ hSeam.nonempty hFits.le
  rintro rfl
  rw [List.head?_cons, Option.any_some, hd.not_identifierQuote (by decide)] at hQuote
  cases hQuote

/-- A number with a dot in front has a digit after it. -/
theorem two_le_of_startsFraction {text : List Char} (h : Number.startsFraction text = true) :
    2 ≤ Number.length text := by
  unfold Number.startsFraction at h
  split at h
  · next rest =>
    have hRun := Number.digitRun_pos h
    have hWhole : Number.digitRun ('.' :: rest) = 0 := rfl
    simp only [Number.length, hWhole, List.drop_zero, Number.fractionLength, h, if_true]
    omega
  · cases h

/-- A number with a dot in front that is there after the exchange was there
before. -/
theorem startsFraction_exchange (hE : Exchange s s') (hu : u ≠ [])
    (h : Number.startsFraction (u ++ s') = true) : Number.startsFraction (u ++ s) = true := by
  obtain ⟨a, v, rfl⟩ := List.exists_cons_of_ne_nil hu
  by_cases ha : a = '.'
  · subst ha
    exact (Number.startsDigit_exchange hE v h).2
  · simp [Number.startsFraction, ha] at h

theorem number?_stable (before : Option TokenKind) (hSeam : Seam u s s') :
    Recogniser.StableAt (number? before) u s s' := by
  refine .of_guard
    (fun text =>
      Number.startsDigit text || (Number.startsFraction text && !before.any (·.isNamePart)))
    (fun text => .accept .number (Number.length text)) (fun _ => rfl) ?_ ?_
  · simp only [Bool.or_eq_true, Bool.and_eq_true]
    rintro (hDigit | ⟨hFraction, hBefore⟩)
    · exact Or.inl (Number.startsDigit_exchange hSeam.exchange u hDigit).2
    · exact Or.inr ⟨startsFraction_exchange hSeam.exchange hSeam.nonempty hFraction, hBefore⟩
  · intro kind n hStart hFits hAccept
    cases hAccept
    have hLe := hFits.le
    have hLength := Number.length_exchange hSeam.exchange hLe hFits.whole
    refine ⟨?_, by rw [hLength]⟩
    -- the first digit of the number stands before the seam
    simp only [Bool.or_eq_true, Bool.and_eq_true] at hStart ⊢
    match u, hSeam.nonempty with
    | [a], _ =>
      refine hStart.imp id (And.imp_left fun hFraction => ?_)
      have hTwo := two_le_of_startsFraction hFraction
      rw [List.length_singleton] at hLe
      omega
    | a :: b :: v, _ =>
      refine hStart.imp id (And.imp_left fun hFraction => ?_)
      by_cases ha : a = '.'
      · subst ha
        exact hFraction
      · simp [Number.startsFraction, ha] at hFraction

/-- The name of a variable that ends before the exchanged text is the same,
unless it may be a quoted run that closes there. -/
theorem variableNameLength_exchange (hE : Exchange s s') {w : List Char}
    (h : variableNameLength (w ++ s) ≤ w.length)
    (hNamed : s' ≠ [] → variableNameLength (w ++ s) = 0 → Text.startsQuote (w ++ s) = false)
    (hCut : s' = [] → variableNameLength (w ++ s) = w.length) :
    variableNameLength (w ++ s') = variableNameLength (w ++ s) := by
  cases w with
  | nil =>
    rw [List.nil_append, List.length_nil, Nat.le_zero] at h
    rw [List.nil_append] at hNamed
    rw [List.nil_append, List.nil_append, h]
    have hRun : Text.wordRun s' = 0 :=
      congrArg List.length
        (Text.takeWhile_append_of_head (hE.any_head_eq_false (by decide +kernel)) [])
    cases hE with
    | cut => rfl
    | same hc =>
      rcases hc with rfl | rfl
      · exact hRun
      · cases hNamed (List.cons_ne_nil _ _) h
    | opener => exact hRun
  | cons q v =>
    simp only [List.cons_append, variableNameLength, Text.startsQuote] at h hNamed hCut ⊢
    by_cases hq : (q == '\'' || q == '"' || q == '\x60') = true
    · rw [if_pos hq] at h hNamed hCut
      rw [if_pos hq, if_pos hq]
      cases hn : Quoted.length? q false (q :: (v ++ s)) with
      | none =>
        rw [hn, Option.getD_none] at hNamed hCut
        by_cases hs' : s' = []
        · cases hCut hs'
        · rw [hq] at hNamed
          cases hNamed hs' rfl
      | some n =>
        have hBrace : q ≠ '{' := by
          rintro rfl
          revert hq
          decide
        rw [hn, Option.getD_some] at h
        have hNew := Quoted.length?_exchange (u := q :: v) hE hBrace (List.cons_ne_nil q v) hn h
        rw [List.cons_append] at hNew
        rw [hNew]
    · rw [if_neg hq] at h
      rw [if_neg hq, if_neg hq, ← List.cons_append, ← List.cons_append, Text.wordRun,
        takeWhile_exchange (u := q :: v) hE (fun hBrace => absurd hBrace (by decide +kernel)) h,
        Text.wordRun]

theorem sigilLength_cons (c b : Char) (rest : List Char) :
    sigilLength (c :: b :: rest) = if c = '@' ∧ b = '@' then 2 else 1 := by
  by_cases hc : c = '@'
  · by_cases hb : b = '@' <;> simp [sigilLength, hc, hb]
  · simp [sigilLength, hc]

/-- The sigils of a variable that ends before the exchanged text are the same. -/
theorem sigilLength_exchange (hE : Exchange s s') (hu : u ≠ [])
    (h : sigilLength (u ++ s) ≤ u.length) : sigilLength (u ++ s') = sigilLength (u ++ s) := by
  match u with
  | [] => exact absurd rfl hu
  | [c] =>
    have hOne : ∀ t : List Char, t.head? ≠ some '@' → sigilLength (c :: t) = 1 := by
      intro t ht
      cases t with
      | nil => simp [sigilLength]
      | cons b t => rw [sigilLength_cons, if_neg (fun hAt => ht (congrArg some hAt.2))]
    have hNew : s'.head? ≠ some '@' := by
      intro hHead
      have hNone := hE.any_head_eq_false (p := (· == '@')) (by decide)
      rw [hHead] at hNone
      cases hNone
    cases s with
    | nil => rw [List.singleton_append, hOne s' hNew, List.append_nil, ← hOne [] (by simp)]
    | cons b t =>
      rw [List.singleton_append, sigilLength_cons, List.length_singleton] at h
      rw [List.singleton_append, hOne s' hNew, List.singleton_append, sigilLength_cons]
      split at h
      · omega
      · next hAt => rw [if_neg hAt]
  | c :: b :: v => simp only [List.cons_append, sigilLength_cons]

theorem specialVariable?_stable (hSeam : Seam u s s') :
    Recogniser.StableAt (specialVariable? d) u s s' := by
  refine .of_head hSeam.nonempty d.isVariableChar
    (fun text => .accept .specialVariable
      (sigilLength text + variableNameLength (text.drop (sigilLength text)))) (fun _ _ => rfl) ?_
  intro kind n _ hFits hAccept
  cases hAccept
  have hLe := hFits.le
  have hNamed := hFits.named rfl
  have hCut := hFits.whole
  have hSigils : sigilLength (u ++ s) ≤ u.length := by omega
  have hDrop : ∀ t, (u ++ t).drop (sigilLength (u ++ s)) = u.drop (sigilLength (u ++ s)) ++ t :=
    fun t => List.drop_append_of_le_length hSigils
  rw [sigilLength_exchange hSeam.exchange hSeam.nonempty hSigils, hDrop, hDrop]
  rw [hDrop] at hLe hNamed hCut
  rw [variableNameLength_exchange hSeam.exchange]
  · rw [List.length_drop]
    omega
  · intro hs' hZero
    have hQuote := hNamed hs' (by rw [hZero]; rfl)
    rwa [hZero, Nat.add_zero, hDrop] at hQuote
  · intro hs'
    have := hCut hs'
    rw [List.length_drop]
    omega

theorem punctuation?_stable (hSeam : Seam u s s') : Recogniser.StableAt punctuation? u s s' := by
  obtain ⟨c, v, rfl⟩ := List.exists_cons_of_ne_nil hSeam.nonempty
  exact .of_eq rfl

theorem operator?_stable (hd : d.Valid) (hSeam : Seam u s s') :
    Recogniser.StableAt (operator? d) u s s' := by
  refine .of_head hSeam.nonempty d.isOperatorChar
    (fun text => .accept .operator (operatorRun d text.tail + 1)) (fun _ _ => rfl) ?_
  intro kind n _ hFits hAccept
  cases hAccept
  obtain ⟨c, v, rfl⟩ := List.exists_cons_of_ne_nil hSeam.nonempty
  have hLe := hFits.le
  have hWhole := hFits.whole
  have hDashes := hFits.dashes rfl
  rw [List.cons_append, List.tail_cons] at hLe hWhole
  rw [List.cons_append, List.cons_append, List.tail_cons, List.tail_cons,
    operatorRun_exchange hSeam.exchange hd (Nat.le_of_succ_le_succ hLe)]
  intro hs'
  refine ⟨Nat.succ.inj (hWhole hs'), fun hSuffix => hDashes hs' ?_⟩
  exact hSuffix.trans (List.suffix_cons c v)

/-- A word that ends before the exchanged text is of the same kind.  One that is
cut off loses the dot after it, and is no longer a name by it. -/
theorem wordKindAt_exchange (hE : Exchange s s') (before : Option TokenKind)
    (h : Text.wordRun (u ++ s) ≤ u.length)
    (hCut : s' = [] → wordKindAt d before (u ++ s) ≠ .identifier) :
    Text.wordRun (u ++ s') = Text.wordRun (u ++ s) ∧
      wordKindAt d before (u ++ s') = wordKindAt d before (u ++ s) := by
  have hRun : Text.wordRun (u ++ s') = Text.wordRun (u ++ s) :=
    congrArg List.length
      (takeWhile_exchange hE (fun hBrace => absurd hBrace (by decide +kernel)) h)
  have hDot : ((u ++ s').drop (Text.wordRun (u ++ s))).head? = some '.' ↔
      ((u ++ s).drop (Text.wordRun (u ++ s))).head? = some '.' := by
    rcases Nat.lt_or_eq_of_le h with hShort | hAll
    · rw [Text.wordRun, (run_head_keep hE (by decide +kernel) hShort).2]
    · rw [hAll, List.drop_left, List.drop_left]
      refine ⟨fun hNew => ?_, fun hOld => ?_⟩
      · have hNone := hE.any_head_eq_false (p := (· == '.')) (by decide)
        rw [hNew] at hNone
        cases hNone
      · by_cases hs' : s' = []
        · refine absurd ?_ (hCut hs')
          rw [wordKindAt, hAll, List.drop_left, hOld]
          rfl
        · exact absurd hOld (hE.head_not_mem hs' '.' (by simp))
  refine ⟨hRun, ?_⟩
  simp only [wordKindAt, hRun, List.take_append_of_le_length h, Bool.or_eq_true, beq_iff_eq, hDot]

theorem word?_stable (before : Option TokenKind) (hSeam : Seam u s s') :
    Recogniser.StableAt (word? d before) u s s' := by
  refine .of_head hSeam.nonempty Text.isWordStart
    (fun text => .accept (wordKindAt d before text) (Text.wordRun text)) (fun _ _ => rfl) ?_
  intro kind n _ hFits hAccept
  cases hAccept
  obtain ⟨hRun, hKind⟩ := wordKindAt_exchange hSeam.exchange before hFits.le
    fun hs' hName => hFits.word hName hs'
  rw [hKind, hRun]

end Symbol

/-! ### One step -/

theorem Region.apostrophe?_stable (hSeam : Seam u s s') :
    Recogniser.StableAt (Region.apostrophe? d) u s s' := by
  obtain ⟨a, v, rfl⟩ := List.exists_cons_of_ne_nil hSeam.nonempty
  by_cases ha : a = '\''
  · subst ha
    simp only [Recogniser.StableAt, List.cons_append, Region.apostrophe?]
    cases hPlan : QuotePlan.ofText (d.on .backslashEscapes) (v ++ s) with
    | string k =>
      refine ⟨fun hNone => (by cases hNone), fun kind n hFits hAccept => ?_⟩
      cases hAccept
      rw [QuotePlan.ofText_exchange hSeam.exchange hPlan (Nat.le_of_succ_le_succ hFits.le)]
    | unterminated =>
      refine ⟨fun hNone => (by cases hNone), fun kind n hFits hAccept => ?_⟩
      cases congrArg (Option.map Match.verdict) hAccept
    | region =>
      refine ⟨fun hNone => (by cases hNone), fun kind n hFits hAccept => ?_⟩
      cases hAccept
      exact absurd rfl hFits.not_regionQuote
  · exact .of_eq (by simp [Region.apostrophe?, ha])

namespace Lexeme

theorem Form.recogniser_stable (hd : d.Valid) (before : Option TokenKind) (hSeam : Seam u s s')
    (f : Form) : Recogniser.StableAt (f.recogniser d before) u s s' := by
  cases f with
  | whitespace => exact Symbol.whitespace?_stable hSeam
  | placeholder => exact Placeholder.match?_stable hSeam
  | unmatchedClose => exact Placeholder.unmatchedClose?_stable hSeam
  | apostrophe => exact Region.apostrophe?_stable hSeam
  | literal => exact Literal.match?_stable hSeam
  | lineComment => exact Comment.line?_stable hSeam
  | blockComment => exact Comment.block?_stable hSeam
  | doubleQuoted => exact Symbol.string?_stable hSeam
  | quotedIdentifier => exact Symbol.quotedIdentifier?_stable hd hSeam
  | number => exact Symbol.number?_stable before hSeam
  | specialVariable => exact Symbol.specialVariable?_stable hSeam
  | punctuation => exact Symbol.punctuation?_stable hSeam
  | operator => exact Symbol.operator?_stable hd hSeam
  | word => exact Symbol.word?_stable before hSeam

theorem firstOf_stable (hd : d.Valid) (before : Option TokenKind) (hSeam : Seam u s s')
    (fs : List Form) :
    Recogniser.StableAt (Recogniser.firstOf (fs.map (Form.recogniser d before))) u s s' := by
  apply Recogniser.StableAt.firstOf
  intro r hr
  obtain ⟨f, _, rfl⟩ := List.mem_map.1 hr
  exact f.recogniser_stable hd before hSeam

/-- **A lexeme before a seam stays the same** when the text after the seam is
exchanged. -/
theorem next_stable (hd : d.Valid) {before : Option TokenKind} (hSeam : Seam u s s')
    {kind : TokenKind} {n : Nat} (hFits : Fits u s s' kind n)
    (h : next d before (u ++ s) = .accept kind n) : next d before (u ++ s') = .accept kind n := by
  have hStable := firstOf_stable hd before hSeam Form.all
  rw [← Form.forms_eq] at hStable
  unfold next at h ⊢
  cases hFound : Recogniser.firstOf (forms d before) (u ++ s) with
  | none =>
    rw [hFound] at h
    cases congrArg Match.verdict h
  | some m =>
    rw [hFound, Option.getD_some] at h
    rw [h] at hFound
    rw [hStable.2 kind n hFits hFound, Option.getD_some]

end Lexeme

end SqlTemplate
