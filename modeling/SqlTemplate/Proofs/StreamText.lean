import SqlTemplate.Json.Stream
import SqlTemplate.Proofs.JsonText
import SqlTemplate.Proofs.Positions

/-!
# Token streams are read back

Spans, tokens, diagnostics, token streams and dotted names are records of numbers,
names and other records.  A record is `Json.Faithful` to its written form if that can
be written as a text and stands for the record; the parts of a record being faithful,
the record is.

* `Json.Value.fields?_object`: the fields of a record are found in the object that is
  written for it.
* `Span.faithful`, `Token.faithful`, `Diagnostic.faithful`, `TokenStream.faithful`,
  `DottedName.faithful`: so a record is faithful if its numbers fit 64 bits.
* `Dialect.fits_scan`, `DottedName.fits_find`: the numbers in the stream of a source,
  and in its dotted names, do not exceed the number of its bytes.
* `records_readBack`: so all of these are read back from their texts.
-/

namespace SqlTemplate

open Json (Value Numeral)

/-! ### Records -/

namespace Json

/-- The record that a text stands for. -/
def read? {α : Type} (ofJson? : Value → Option α) (text : List Char) : Option α :=
  (parse? text).bind ofJson?

/-- The written form of the record can be written as a text, and stands for it. -/
structure Faithful {α : Type} (toJson : α → Value) (ofJson? : Value → Option α) (x : α) : Prop where
  wellFormed : (toJson x).WellFormed
  ofJson?_toJson : ofJson? (toJson x) = some x

section Faithful

variable {α : Type} {toJson : α → Value} {ofJson? : Value → Option α}

theorem Faithful.read?_render {x : α} (h : Faithful toJson ofJson? x) :
    read? ofJson? (toJson x).render = some x := by
  rw [read?, parse?_render h.wellFormed, Option.bind_some, h.ofJson?_toJson]

theorem mapM_map {β γ : Type} {f : β → Option γ} {g : α → β} {k : α → γ} {xs : List α}
    (h : ∀ x ∈ xs, f (g x) = some (k x)) : (xs.map g).mapM f = some (xs.map k) := by
  induction xs with
  | nil => rfl
  | cons x xs ih =>
    rw [List.forall_mem_cons] at h
    simp [List.mapM_cons, h.1, ih h.2]

/-- Faithful records are faithful in a list. -/
theorem Faithful.list {xs : List α} (h : ∀ x ∈ xs, Faithful toJson ofJson? x) :
    Faithful (fun xs => .array (xs.map toJson)) (fun v => v.items?.bind (List.mapM ofJson?))
      xs where
  wellFormed := by
    apply Value.wellFormed_array
    rw [List.forall_mem_map]
    exact fun x hx => (h x hx).wellFormed
  ofJson?_toJson := by
    have hItems := mapM_map (k := id) fun x hx => (h x hx).ofJson?_toJson
    rwa [List.map_id] at hItems

end Faithful

namespace Value

theorem member?_of_mem {members : List (String × Value)} (hNodup : (members.map Prod.fst).Nodup)
    {m : String × Value} (hm : m ∈ members) : member? members m.1 = some m.2 := by
  have hFilter : members.filter (·.1 == m.1) = [m] := by
    induction members with
    | nil => cases hm
    | cons x members ih =>
      rw [List.map_cons, List.nodup_cons] at hNodup
      rcases List.mem_cons.1 hm with rfl | hm
      · rw [List.filter_cons_of_pos (by simp), List.filter_eq_nil_iff.2]
        intro y hy hKey
        exact hNodup.1 (List.mem_map.2 ⟨y, hy, beq_iff_eq.1 hKey⟩)
      · rw [List.filter_cons_of_neg, ih hNodup.2 hm]
        intro hKey
        exact hNodup.1 (List.mem_map.2 ⟨m, hm, (beq_iff_eq.1 hKey).symm⟩)
  rw [member?, hFilter]

/-- **The fields of a record are found in its object.** -/
theorem fields?_object {members : List (String × Value)}
    (hNodup : (members.map Prod.fst).Nodup) :
    (object members).fields? (members.map Prod.fst) = some (members.map Prod.snd) :=
  mapM_map fun _ hm => member?_of_mem hNodup hm

theorem toNat?_ofNat {n : Nat} (h : n < Numeral.wordBound) : (ofNat n).toNat? = some n := by
  have hValue : (Numeral.ofNat n).wholeValue = n := Nat.ofDigitChars_ten_toDigits
  have hBound : (Numeral.ofNat n).wholeValue < Numeral.wordBound := by
    rw [hValue]
    exact h
  show (Numeral.ofNat n).toNat? = some n
  rw [Numeral.toNat?, decide_eq_true hBound, hValue]
  rfl

theorem wellFormed_ofNat (n : Nat) : (ofNat n).WellFormed := by
  rw [ofNat, WellFormed]
  exact Numeral.wellFormed_ofNat n

end Value

end Json

theorem TokenKind.ofJson?_toJson (k : TokenKind) : ofJson? k.toJson = some k := by
  cases k <;> decide +kernel

theorem Fault.ofJson?_toJson (f : Fault) : ofJson? f.toJson = some f := by
  cases f <;> decide +kernel

/-- The numbers of the span fit 64 bits. -/
structure Span.Fits (s : Span) : Prop where
  start : s.start < Numeral.wordBound
  stop : s.stop < Numeral.wordBound
  line : s.line < Numeral.wordBound
  column : s.column < Numeral.wordBound

/-- The indices of the range fit 64 bits. -/
structure IndexRange.Fits (r : IndexRange) : Prop where
  start : r.start < Numeral.wordBound
  stop : r.stop < Numeral.wordBound

theorem Span.faithful {s : Span} (h : s.Fits) : Json.Faithful Span.toJson Span.ofJson? s where
  wellFormed := by
    apply Value.wellFormed_object
    simp [Value.wellFormed_ofNat]
  ofJson?_toJson := by
    have hFields : s.toJson.fields? ["start", "end", "line", "column"] =
        some [.ofNat s.start, .ofNat s.stop, .ofNat s.line, .ofNat s.column] :=
      Value.fields?_object (by simp)
    simp [ofJson?, hFields, Value.toNat?_ofNat h.start, Value.toNat?_ofNat h.stop,
      Value.toNat?_ofNat h.line, Value.toNat?_ofNat h.column]

theorem IndexRange.faithful {r : IndexRange} (h : r.Fits) :
    Json.Faithful IndexRange.toJson IndexRange.ofJson? r where
  wellFormed := by
    apply Value.wellFormed_object
    simp [Value.wellFormed_ofNat]
  ofJson?_toJson := by
    have hFields : r.toJson.fields? ["start", "end"] = some [.ofNat r.start, .ofNat r.stop] :=
      Value.fields?_object (by simp)
    have hOnly : r.toJson.hasOnly ["start", "end"] = true := by simp [toJson, Value.hasOnly]
    simp [ofJson?, hFields, hOnly, Value.toNat?_ofNat h.start, Value.toNat?_ofNat h.stop]

theorem Token.faithful {t : Token} (h : t.span.Fits) :
    Json.Faithful Token.toJson Token.ofJson? t where
  wellFormed := by
    apply Value.wellFormed_object
    simp [TokenKind.toJson, Value.WellFormed, (Span.faithful h).wellFormed]
  ofJson?_toJson := by
    have hFields : t.toJson.fields? ["kind", "span"] = some [t.kind.toJson, t.span.toJson] :=
      Value.fields?_object (by simp)
    simp [ofJson?, hFields, TokenKind.ofJson?_toJson, (Span.faithful h).ofJson?_toJson]

theorem Diagnostic.faithful {e : Diagnostic} (h : e.span.Fits) :
    Json.Faithful Diagnostic.toJson Diagnostic.ofJson? e where
  wellFormed := by
    apply Value.wellFormed_object
    simp [Fault.toJson, Value.WellFormed, (Span.faithful h).wellFormed]
  ofJson?_toJson := by
    have hFields : e.toJson.fields? ["kind", "span"] = some [e.fault.toJson, e.span.toJson] :=
      Value.fields?_object (by simp)
    simp [ofJson?, hFields, Fault.ofJson?_toJson, (Span.faithful h).ofJson?_toJson]

/-- The numbers of the stream fit 64 bits. -/
structure TokenStream.Fits (s : TokenStream) : Prop where
  tokens : ∀ t ∈ s.tokens, t.span.Fits
  diagnostics : ∀ e ∈ s.diagnostics, e.span.Fits

theorem TokenStream.faithful {s : TokenStream} (h : s.Fits) :
    Json.Faithful TokenStream.toJson TokenStream.ofJson? s := by
  have hTokens := Json.Faithful.list fun t ht => Token.faithful (h.tokens t ht)
  have hErrors := Json.Faithful.list fun e he => Diagnostic.faithful (h.diagnostics e he)
  refine ⟨?_, ?_⟩
  · apply Value.wellFormed_object
    simp [hTokens.wellFormed, hErrors.wellFormed]
  · have hFields : s.toJson.fields? ["tokens", "errors"] =
        some [.array (s.tokens.map Token.toJson), .array (s.diagnostics.map Diagnostic.toJson)] :=
      Value.fields?_object (by simp)
    have hTokensRead : (s.tokens.map Token.toJson).mapM Token.ofJson? = some s.tokens :=
      hTokens.ofJson?_toJson
    have hErrorsRead :
        (s.diagnostics.map Diagnostic.toJson).mapM Diagnostic.ofJson? = some s.diagnostics :=
      hErrors.ofJson?_toJson
    simp only [ofJson?, hFields, Value.items?, bind, pure, Option.bind_some, hTokensRead,
      hErrorsRead]

/-- The indices and the numbers of the span fit 64 bits. -/
structure DottedName.Fits (n : DottedName) : Prop where
  tokens : n.tokens.Fits
  span : n.span.Fits

theorem DottedName.faithful {n : DottedName} (h : n.Fits) :
    Json.Faithful DottedName.toJson DottedName.ofJson? n where
  wellFormed := by
    apply Value.wellFormed_object
    simp [(IndexRange.faithful h.tokens).wellFormed, (Span.faithful h.span).wellFormed]
  ofJson?_toJson := by
    have hFields : n.toJson.fields? ["tokens", "span"] = some [n.tokens.toJson, n.span.toJson] :=
      Value.fields?_object (by simp)
    simp [ofJson?, hFields, (IndexRange.faithful h.tokens).ofJson?_toJson,
      (Span.faithful h.span).ofJson?_toJson]

/-! ### The stream of a source -/

/-- The numbers of a span do not exceed the number of bytes of the source. -/
theorem Span.fits_ofText {before text after : List Char} (hText : text ≠ [])
    (hSource : Text.byteLength (before ++ (text ++ after)) < Numeral.wordBound) :
    (Span.ofText (Position.start.advance before) text).Fits := by
  have hPos : Text.byteLength text ≠ 0 := mt Text.byteLength_eq_zero_iff.1 hText
  have hLength := Text.length_le_byteLength before
  rw [Text.byteLength_append, Text.byteLength_append] at hSource
  have hOffset := start_advance_offset before
  refine ⟨?_, ?_, ?_, ?_⟩
  · show (Position.start.advance before).offset < _
    omega
  · show (Position.start.advance before).offset + Text.byteLength text < _
    omega
  · show (Position.start.advance before).line < _
    have hCount := List.count_le_length (a := '\n') (l := before)
    rw [Position.start_advance_line]
    omega
  · show (Position.start.advance before).column < _
    have hRun : (before.rtakeWhile (· ≠ '\n')).length ≤ before.length :=
      (List.rtakeWhile_suffix _ _).length_le
    rw [Position.start_advance_column]
    omega

theorem fits_of_settledLexemes {d : Dialect} {source : List Char} {us vs : List Lexeme}
    {x : Lexeme} (h : settledLexemes d source = us ++ x :: vs)
    (hSource : Text.byteLength source < Numeral.wordBound) :
    (Span.ofText (Position.start.advance (textOf us)) x.text).Fits := by
  have hText : x.text ≠ [] := text_ne_nil_of_mem_settledLexemes d source x (by simp [h])
  rw [← textOf_settledLexemes d source, h, textOf_append, textOf_cons] at hSource
  exact Span.fits_ofText hText hSource

/-- **The stream of a source fits 64 bits if the source does.** -/
theorem Dialect.fits_scan (d : Dialect) {source : List Char}
    (hSource : Text.byteLength source < Numeral.wordBound) : (d.scan source).Fits := by
  rw [scan_eq]
  refine ⟨?_, ?_⟩
  · intro t ht
    obtain ⟨us, x, vs, hLexemes, rfl⟩ := mem_tokensAt ht
    exact fits_of_settledLexemes hLexemes hSource
  · intro e he
    obtain ⟨us, x, vs, hLexemes, _, hSpan⟩ := mem_diagnosticsAt he
    rw [hSpan]
    exact fits_of_settledLexemes hLexemes hSource

namespace DottedName

/-- The name lies within these tokens, the first of which has the given index, and
goes from one of them to another. -/
structure Within (n : DottedName) (index : Nat) (tokens : List Token) : Prop where
  order : n.tokens.start ≤ n.tokens.stop
  stop : n.tokens.stop ≤ index + tokens.length
  span : ∃ first ∈ tokens, ∃ last ∈ tokens, n.span = cover first last

theorem Within.of_suffix {n : DottedName} {index later : Nat} {rest tokens : List Token}
    (h : n.Within later rest) (hRest : rest <:+ tokens)
    (hEnd : later + rest.length ≤ index + tokens.length) : n.Within index tokens where
  order := h.order
  stop := Nat.le_trans h.stop hEnd
  span := by
    obtain ⟨first, hFirst, last, hLast, hSpan⟩ := h.span
    exact ⟨first, hRest.subset hFirst, last, hRest.subset hLast, hSpan⟩

theorem within_head (index : Nat) (t : Token) (rest : List Token) :
    Within ⟨⟨index, index + 1 + tailLength rest⟩,
      cover t ((rest.take (tailLength rest)).getLastD t)⟩ index (t :: rest) where
  order := by
    show index ≤ index + 1 + tailLength rest
    omega
  stop := by
    have hTail := tailLength_le rest
    show index + 1 + tailLength rest ≤ index + (t :: rest).length
    rw [List.length_cons]
    omega
  span := by
    have hLast : (rest.take (tailLength rest)).getLastD t ∈ t :: rest.take (tailLength rest) :=
      List.getLastD_mem_cons
    exact ⟨t, List.mem_cons_self, _, List.cons_subset_cons t (List.take_subset _ rest) hLast, rfl⟩

/-- **A dotted name lies within the tokens it is found in.** -/
theorem within_of_mem_findFrom {n : DottedName} {index : Nat} {tokens : List Token}
    (h : n ∈ findFrom index tokens) : n.Within index tokens := by
  fun_induction findFrom index tokens with
  | case1 => cases h
  | case2 index t rest tail _ ih =>
    have hTail : tail ≤ rest.length := tailLength_le rest
    rcases List.mem_cons.1 h with rfl | hFound
    · exact within_head index t rest
    · refine (ih hFound).of_suffix ((List.drop_suffix tail rest).trans (List.suffix_cons t rest)) ?_
      rw [List.length_drop, List.length_cons]
      omega
  | case3 index t rest tail _ ih =>
    refine (ih h).of_suffix (List.suffix_cons t rest) ?_
    rw [List.length_cons]
    omega

/-- **The dotted names of a source fit 64 bits if the source does.** -/
theorem fits_find {d : Dialect} {source : List Char}
    (hSource : Text.byteLength source < Numeral.wordBound) {n : DottedName}
    (h : n ∈ find (d.scan source).tokens) : n.Fits := by
  have hWithin := within_of_mem_findFrom h
  obtain ⟨first, hFirst, last, hLast, hSpan⟩ := hWithin.span
  have hCount : (d.scan source).tokens.length ≤ source.length := by
    have hTiles := tokensAt_tiles (text_ne_nil_of_mem_settledLexemes d source)
    rw [textOf_settledLexemes, ← tokens_scan] at hTiles
    exact hTiles.count.2
  have hBytes := Text.length_le_byteLength source
  have hFits := d.fits_scan hSource
  have hFirstFits := hFits.tokens first hFirst
  have hStop : n.tokens.stop < Numeral.wordBound := by
    have := hWithin.stop
    omega
  refine ⟨⟨Nat.lt_of_le_of_lt hWithin.order hStop, hStop⟩, ?_⟩
  rw [hSpan]
  exact ⟨hFirstFits.start, (hFits.tokens last hLast).stop, hFirstFits.line, hFirstFits.column⟩

end DottedName

/-- **Token streams are read back.**  A span, a token, a diagnostic, a token stream or
a dotted name whose numbers fit 64 bits is read back from its JSON text; and so are the
stream of every source in every dialect, and each of its dotted names, if the length
of the source in bytes fits 64 bits. -/
theorem records_readBack :
    (∀ s : Span, s.Fits → Json.read? Span.ofJson? s.toJson.render = some s) ∧
      (∀ t : Token, t.span.Fits → Json.read? Token.ofJson? t.toJson.render = some t) ∧
      (∀ e : Diagnostic, e.span.Fits →
        Json.read? Diagnostic.ofJson? e.toJson.render = some e) ∧
      (∀ s : TokenStream, s.Fits → Json.read? TokenStream.ofJson? s.toJson.render = some s) ∧
      (∀ n : DottedName, n.Fits → Json.read? DottedName.ofJson? n.toJson.render = some n) ∧
      ∀ (d : Dialect) (source : List Char), Text.byteLength source < Numeral.wordBound →
        Json.read? TokenStream.ofJson? (d.scan source).toJson.render = some (d.scan source) ∧
          ∀ n ∈ DottedName.find (d.scan source).tokens,
            Json.read? DottedName.ofJson? n.toJson.render = some n := by
  refine ⟨?_, ?_, ?_, ?_, ?_, ?_⟩
  · intro s hs
    exact (Span.faithful hs).read?_render
  · intro t ht
    exact (Token.faithful ht).read?_render
  · intro e he
    exact (Diagnostic.faithful he).read?_render
  · intro s hs
    exact (TokenStream.faithful hs).read?_render
  · intro n hn
    exact (DottedName.faithful hn).read?_render
  · intro d source hSource
    refine ⟨(TokenStream.faithful (d.fits_scan hSource)).read?_render, ?_⟩
    intro n hn
    exact (DottedName.faithful (DottedName.fits_find hSource hn)).read?_render

/-- The span with the greatest numbers. -/
def Span.greatest : Span :=
  ⟨Numeral.wordBound - 1, Numeral.wordBound - 1, Numeral.wordBound - 1, Numeral.wordBound - 1⟩

/-- A stream and a dotted name with this span. -/
def TokenStream.greatest : TokenStream := ⟨[⟨.typeName, .greatest⟩], [⟨.strayDot, .greatest⟩]⟩

def DottedName.greatest : DottedName := ⟨⟨Numeral.wordBound - 1, 0⟩, .greatest⟩

/-- The greatest numbers, and a source with a dotted name and a diagnostic. -/
theorem records_readBack_greatest :
    TokenStream.greatest.Fits ∧
      Json.read? TokenStream.ofJson? TokenStream.greatest.toJson.render = some .greatest ∧
      DottedName.greatest.Fits ∧
      Json.read? DottedName.ofJson? DottedName.greatest.toJson.render = some .greatest ∧
      Text.byteLength "a.é.".toList < Numeral.wordBound ∧
      (⟨⟨0, 3⟩, ⟨0, 4, 1, 1⟩⟩ : DottedName) ∈
        DottedName.find (Preset.standard.rules.scan "a.é.".toList).tokens ∧
      Json.read? TokenStream.ofJson? (Preset.standard.rules.scan "a.é.".toList).toJson.render =
        some (Preset.standard.rules.scan "a.é.".toList) ∧
      Json.read? DottedName.ofJson? (⟨⟨0, 3⟩, ⟨0, 4, 1, 1⟩⟩ : DottedName).toJson.render =
        some ⟨⟨0, 3⟩, ⟨0, 4, 1, 1⟩⟩ := by
  have hGreatest : Span.greatest.Fits := ⟨by decide, by decide, by decide, by decide⟩
  have hStream : TokenStream.greatest.Fits := by
    refine ⟨?_, ?_⟩
    · intro t ht
      rw [List.mem_singleton.1 ht]
      exact hGreatest
    · intro e he
      rw [List.mem_singleton.1 he]
      exact hGreatest
  have hName : DottedName.greatest.Fits := ⟨⟨by decide, by decide⟩, hGreatest⟩
  have hSource : Text.byteLength "a.é.".toList < Numeral.wordBound := by decide +kernel
  have hFound : (⟨⟨0, 3⟩, ⟨0, 4, 1, 1⟩⟩ : DottedName) ∈
      DottedName.find (Preset.standard.rules.scan "a.é.".toList).tokens := by
    decide +kernel
  obtain ⟨_, _, _, hStreams, hNames, hSources⟩ := records_readBack
  obtain ⟨hScan, hScanNames⟩ := hSources Preset.standard.rules "a.é.".toList hSource
  exact ⟨hStream, hStreams _ hStream, hName, hNames _ hName, hSource, hFound, hScan,
    hScanNames _ hFound⟩

end SqlTemplate
