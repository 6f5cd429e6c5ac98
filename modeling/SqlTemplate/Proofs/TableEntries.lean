import SqlTemplate.Dialect.Draft
import SqlTemplate.Proofs.CharRoles
import SqlTemplate.Proofs.DottedNames
import SqlTemplate.Proofs.Triggers
import SqlTemplate.Proofs.UpperCase

/-!
# The entries of the word tables

A valid dialect has words in its tables, and a word by itself is one token.  Which one is a
question of its upper-case form, so an entry in upper case is read as what its table says, and no
other entry is found at all.

* `Dialect.readsAs_word_iff`: what a word by itself is read as.
* `scan_withTables`: two dialects that differ in their tables only, and give all words the same
  kinds, read every source in the same way.
* `upper_ne_of_upper_ne`: an entry that is not in upper case is not looked for, so that it may as
  well be taken out.

The main statement is `reads_entries`.
-/

namespace SqlTemplate

/-! ### Tables with the same words -/

section Tables

variable {d : Dialect} {keywords typeNames : List Word}

/-- The dialect with other tables. -/
def Dialect.withTables (d : Dialect) (keywords typeNames : List Word) : Dialect :=
  { d with keywords := keywords, typeNames := typeNames }

theorem Symbol.operatorRun_withTables (text : List Char) :
    operatorRun (d.withTables keywords typeNames) text = operatorRun d text := by
  induction text with
  | nil => rfl
  | cons c rest ih =>
    rw [operatorRun, operatorRun, ih]
    rfl

theorem Region.scan_withTables (count : Nat) (text : List Char) :
    scan (d.withTables keywords typeNames) count text = scan d count text := by
  fun_induction scan d count text with
  | case1 count => rw [scan]
  | case2 count c rest m remaining hClose =>
    rw [scan]
    exact if_pos hClose
  | case3 count c rest m remaining hInner region ih =>
    have hNext : next (d.withTables keywords typeNames) count (c :: rest) = m := rfl
    simp only [dite_eq_ite, remaining] at ih
    rw [scan_of_inner (List.cons_ne_nil c rest) (by rw [hNext]; exact hInner), hNext, ih]
    rfl

variable (hKind : ∀ w, (d.withTables keywords typeNames).wordKind w = d.wordKind w)

include hKind

theorem Lexeme.Form.recogniser_withTables (before : Option TokenKind) (f : Form)
    (text : List Char) :
    f.recogniser (d.withTables keywords typeNames) before text = f.recogniser d before text := by
  cases f with
  | operator =>
    cases text with
    | nil => rfl
    | cons c rest =>
      simp only [recogniser, Symbol.operator?, Symbol.operatorRun_withTables]
      rfl
  | word =>
    cases text with
    | nil => rfl
    | cons c rest => simp only [recogniser, Symbol.word?, Symbol.wordKindAt, hKind]
  | _ => rfl

theorem Lexeme.next_withTables (before : Option TokenKind) (text : List Char) :
    next (d.withTables keywords typeNames) before text = next d before text := by
  have hForms : ∀ fs : List Form,
      Recogniser.firstOf (fs.map (Form.recogniser (d.withTables keywords typeNames) before)) text =
        Recogniser.firstOf (fs.map (Form.recogniser d before)) text := by
    intro fs
    rw [Recogniser.firstOf, Recogniser.firstOf, List.findSome?_map, List.findSome?_map]
    exact congrArg (fs.findSome? ·) (funext fun f => f.recogniser_withTables hKind before text)
  rw [next, next, Form.forms_eq, Form.forms_eq, hForms]

/-- **The tables matter through the kinds of words only.** -/
theorem scan_withTables (source : List Char) :
    (d.withTables keywords typeNames).scan source = d.scan source :=
  Dialect.scan_congr (fun text _ => Region.scan_withTables 0 text)
    fun text before _ => Lexeme.next_withTables hKind before text

end Tables

/-! ### Looking an entry up -/

section Entries

variable {d : Dialect} {w : Word}

/-- A word by itself is one token, whose kind the tables tell. -/
theorem Dialect.readsAs_word_iff (hd : d.Valid) (hw : Text.isWord w = true) {kind : TokenKind} :
    d.ReadsAs w kind ↔ kind = d.wordKind w := by
  have hLiteral : Literal.match? d w = none := by
    have hEnd : Text.EndsPart [] := nofun
    have hNone := Literal.match?_of_word (d := d) hw hEnd
    rwa [List.append_nil] at hNone
  have hWhole := WholeKind.word hLiteral hw
  have hReads : d.ReadsAs w (d.wordKind w) :=
    scan_of_next hWhole.text_ne_nil hWhole.kind_not_mem (hWhole.next_eq hd)
  constructor
  · intro h
    have hTokens := h.2.symm.trans hReads.2
    simpa using hTokens
  · rintro rfl
    exact hReads

/-- Every entry of the tables of a valid dialect is a word. -/
theorem Dialect.Valid.isWord_of_mem (hd : d.Valid) (hw : w ∈ d.keywords ++ d.typeNames) :
    Text.isWord w = true :=
  (List.mem_append.1 hw).elim (hd.keyword_word w) (hd.typeName_word w)

/-- Taking an entry out of a table makes no difference to the words that are not it. -/
theorem Edit.contains_removeWord {table : List Word} {v w : Word} (h : v ≠ w) :
    (removeWord table w).contains v = table.contains v := by
  rw [Bool.eq_iff_iff, List.contains_iff_mem, List.contains_iff_mem, removeWord, List.mem_filter]
  simp [h]

theorem Edit.mem_insertWord {table : List Word} {v w : Word} :
    v ∈ insertWord table w ↔ v ∈ table ∨ v = w := by
  unfold insertWord
  split
  · next hMem =>
    refine ⟨Or.inl, fun h => h.elim id ?_⟩
    rintro rfl
    exact hMem
  · rw [List.mem_append, List.mem_singleton]

theorem Edit.mem_keywords_addKeyword (d : Dialect) (w : Word) :
    w ∈ (apply d (.addKeyword w)).keywords :=
  mem_insertWord.2 (Or.inr rfl)

/-- Any word may be added. -/
theorem Edit.valid_addKeyword (hd : d.Valid) (hw : Text.isWord w = true) :
    (apply d (.addKeyword w)).Valid := by
  have hWords : ∀ v ∈ insertWord d.keywords w, Text.isWord v = true := by
    intro v hv
    rcases mem_insertWord.1 hv with hTable | rfl
    · exact hd.keyword_word v hTable
    · exact hw
  exact ⟨hd.apostrophe, hd.doubleQuote, hd.operator_not_variable, hd.hash, hd.operator_free,
    hd.variable_free, hd.quote_free, hd.quote_disjoint, hWords, hd.typeName_word⟩

/-- **An entry that is not in upper case is never found.** -/
theorem upper_ne_of_upper_ne (hw : Text.upper w ≠ w) (v : Word) : Text.upper v ≠ w := by
  rintro rfl
  exact hw (Text.upper_upper v)

theorem wordKind_removeKeyword (hw : Text.upper w ≠ w) (v : Word) :
    (d.withTables (Edit.removeWord d.keywords w) d.typeNames).wordKind v = d.wordKind v := by
  have hKeyword : (d.withTables (Edit.removeWord d.keywords w) d.typeNames).isKeyword v =
      d.isKeyword v := Edit.contains_removeWord (upper_ne_of_upper_ne hw v)
  rw [Dialect.wordKind, hKeyword]
  rfl

theorem wordKind_removeTypeName (hw : Text.upper w ≠ w) (v : Word) :
    (d.withTables d.keywords (Edit.removeWord d.typeNames w)).wordKind v = d.wordKind v := by
  have hTypeName : (d.withTables d.keywords (Edit.removeWord d.typeNames w)).isTypeName v =
      d.isTypeName v := Edit.contains_removeWord (upper_ne_of_upper_ne hw v)
  rw [Dialect.wordKind, hTypeName]
  rfl

end Entries

/-! ### What becomes of the entries -/

/-- If the word is an entry of a table, then it is read as what the table says.  The keyword table
comes first. -/
def Dialect.Effective (d : Dialect) (w : Word) : Prop :=
  (w ∈ d.keywords → d.ReadsAs w .keyword) ∧
    (w ∈ d.typeNames → w ∉ d.keywords → d.ReadsAs w .typeName)

section Effective

variable {d : Dialect} {w : Word}

theorem Dialect.wordKind_eq (d : Dialect) (w : Word) :
    d.wordKind w = if Text.upper w ∈ d.keywords then .keyword
      else if Text.upper w ∈ d.typeNames then .typeName else .identifier := by
  simp [wordKind, isKeyword, isTypeName]

theorem Dialect.Valid.effective (hd : d.Valid) (hw : Text.upper w = w) : d.Effective w := by
  have hKind := d.wordKind_eq w
  rw [hw] at hKind
  constructor
  · intro hMem
    rw [Dialect.readsAs_word_iff hd (hd.keyword_word w hMem), hKind, if_pos hMem]
  · intro hMem hOther
    rw [Dialect.readsAs_word_iff hd (hd.typeName_word w hMem), hKind, if_neg hOther, if_pos hMem]

end Effective

/-- **The entries of the tables.**  Every entry by itself is one token, and what kind of token is a
matter of its upper-case form.  So an entry in upper case is read as what its table says.  All
entries of the built-in dialects are in upper case, with any overrides; but an edit can add others,
and such an entry is never found: without it every source is read in the same way. -/
theorem reads_entries {d : Dialect} (hd : d.Valid) :
    (∀ w ∈ d.keywords ++ d.typeNames, ∀ kind, d.ReadsAs w kind ↔
      kind = if Text.upper w ∈ d.keywords then .keyword
        else if Text.upper w ∈ d.typeNames then .typeName else .identifier) ∧
      (∀ w, Text.upper w = w → d.Effective w) ∧
      (∀ (p : Preset) (o : Overrides), (o.apply p.rules).Valid →
        ∀ w, (o.apply p.rules).Effective w) ∧
      ∀ w, Text.upper w ≠ w → ∀ source,
        (Edit.apply d (.removeKeyword w)).scan source = d.scan source ∧
          (Edit.apply d (.removeTypeName w)).scan source = d.scan source := by
  refine ⟨?_, fun w hw => hd.effective hw, ?_, ?_⟩
  · intro w hMem kind
    rw [Dialect.readsAs_word_iff hd (hd.isWord_of_mem hMem), Dialect.wordKind_eq]
  · intro p o hValid w
    have hUpper := o.upper_of_mem_apply p.upper_of_mem w
    constructor
    · intro hMem
      exact (hValid.effective (hUpper (List.mem_append_left _ hMem))).1 hMem
    · intro hMem
      exact (hValid.effective (hUpper (List.mem_append_right _ hMem))).2 hMem
  · intro w hw source
    exact ⟨scan_withTables (wordKind_removeKeyword hw) source,
      scan_withTables (wordKind_removeTypeName hw) source⟩

/-- Overrides with two tables. -/
def Overrides.twoTables : Overrides :=
  (Overrides.empty.setText .keywords "foo").setText .typeNames "foo stra\u00dfe"

theorem Overrides.twoTables_valid : (twoTables.apply Preset.mysql.rules).Valid :=
  Dialect.fault?_eq_none_iff.1 (by decide +kernel)

/-- The words of the overrides become entries in upper case. -/
theorem reads_entries_twoTables :
    Preset.standard.rules.Valid ∧ (Overrides.twoTables.apply Preset.mysql.rules).Valid ∧
      (Overrides.twoTables.apply Preset.mysql.rules).keywords = ["FOO".toList] ∧
      (Overrides.twoTables.apply Preset.mysql.rules).typeNames =
        ["FOO".toList, "STRASSE".toList] ∧
      (Overrides.twoTables.apply Preset.mysql.rules).ReadsAs "FOO".toList .keyword ∧
      (Overrides.twoTables.apply Preset.mysql.rules).ReadsAs "STRASSE".toList .typeName := by
  have hd := Preset.rules_valid .standard
  have hValid := Overrides.twoTables_valid
  have hEntries := (reads_entries hd).2.2.1 .mysql Overrides.twoTables hValid
  exact ⟨hd, hValid, by decide +kernel, by decide +kernel, (hEntries _).1 (by decide +kernel),
    (hEntries _).2 (by decide +kernel) (by decide +kernel)⟩

/-- A keyword that is added as it is written. -/
def Dialect.withSmallKeyword : Dialect :=
  Edit.apply (Overrides.twoTables.apply Preset.mysql.rules) (.addKeyword "bar".toList)

/-- The dialect is valid, and its keyword is an identifier. -/
theorem reads_entries_small :
    Dialect.withSmallKeyword.Valid ∧ "bar".toList ∈ Dialect.withSmallKeyword.keywords ∧
      (Dialect.withSmallKeyword.scan "bar".toList).kinds = [.identifier] ∧
      ¬Dialect.withSmallKeyword.Effective "bar".toList := by
  have hMem := Edit.mem_keywords_addKeyword (Overrides.twoTables.apply Preset.mysql.rules)
    "bar".toList
  have hKinds : (Dialect.withSmallKeyword.scan "bar".toList).kinds = [.identifier] := by
    decide +kernel
  refine ⟨Edit.valid_addKeyword Overrides.twoTables_valid (by decide), hMem, hKinds, ?_⟩
  intro hEffective
  have hKeyword := (hEffective.1 hMem).2
  rw [TokenStream.kinds, hKeyword] at hKinds
  cases hKinds

end SqlTemplate
