import SqlTemplate.Proofs.Recognition

/-!
# Reading step by step

What holds of every single step of reading holds of all lexemes of a text.  The
induction over a text is done here once (`forall_mem_region`,
`forall_mem_lexemes`, `forall_mem_settledLexemes`), and so is the unfolding of
one step:

* `Lexeme.next_eq_regionQuote`: when a step opens a quoted region.
* `lexemes_of_plain`, `lexemes_of_closed`, `lexemes_of_open`: the lexemes of a
  text by what stands at its head: a lexeme outside quoted regions, a region
  that closes, a region that does not.
-/

namespace SqlTemplate

/-- The lexeme of a quote that opens or closes a quoted region. -/
def Lexeme.quote : Lexeme := ⟨['\''], .accept .regionQuote⟩

/-- The lexeme of a quote that opens a region which is never closed. -/
def Lexeme.openQuote : Lexeme := ⟨['\''], .reject .unterminatedRegion⟩

/-- **A quoted region opens only at an apostrophe**, before a placeholder. -/
theorem Lexeme.next_eq_regionQuote {d : Dialect} {before : Option TokenKind} {text : List Char}
    (h : (Lexeme.next d before text).verdict = .accept .regionQuote) :
    ∃ rest, text = '\'' :: rest ∧
      QuotePlan.ofText (d.on .backslashEscapes) rest = .region ∧
      Lexeme.next d before text = .accept .regionQuote 1 := by
  rcases Lexeme.next_cases d before text with ⟨f, hf, hVerdict⟩ | hNext
  · rw [h] at hVerdict
    have hForm : f = .apostrophe := by
      cases f <;> revert hVerdict <;> decide
    subst hForm
    generalize Lexeme.next d before text = m at hf h
    simp only [Form.recogniser] at hf
    unfold Region.apostrophe? at hf
    split at hf
    · next rest =>
      split at hf
      · cases hf
        simp at h
      · cases hf
        simp at h
      · next hPlan =>
        cases hf
        exact ⟨rest, rfl, hPlan, rfl⟩
    · simp at hf
  · rw [hNext] at h
    simp at h

/-! ### The lexemes of a text by what stands at its head -/

section Head

variable {d : Dialect} {before : Option TokenKind}

theorem lexemes_of_plain {text : List Char} (hText : text ≠ [])
    (h : (Lexeme.next d before text).verdict ≠ .accept .regionQuote) :
    lexemes d before text =
      (Lexeme.next d before text).lexeme text ::
        lexemes d (some (Lexeme.next d before text).kind)
          (text.drop (Lexeme.next d before text).length) := by
  cases text with
  | nil => exact absurd rfl hText
  | cons c rest => rw [lexemes]; simp only [h, if_false]

theorem lexemes_of_closed {rest after : List Char}
    (h : (Lexeme.next d before ('\'' :: rest)).verdict = .accept .regionQuote)
    (hAfter : (Region.scan d 0 rest).after = some after) :
    lexemes d before ('\'' :: rest) =
      Lexeme.quote ::
        ((Region.scan d 0 rest).lexemes ++ lexemes d (some .regionQuote) after) := by
  obtain ⟨_, _, _, hNext⟩ := Lexeme.next_eq_regionQuote h
  have hRest : ('\'' :: rest).drop (Lexeme.next d before ('\'' :: rest)).length = rest := by
    rw [hNext]
    rfl
  rw [lexemes]
  simp only [h, if_true, hRest]
  split
  · next hNone =>
    rw [hRest, hAfter] at hNone
    cases hNone
  · next found hFound =>
    rw [hRest, hAfter] at hFound
    cases hFound
    rw [hNext]
    rfl

theorem lexemes_of_open {rest : List Char}
    (h : (Lexeme.next d before ('\'' :: rest)).verdict = .accept .regionQuote)
    (hAfter : (Region.scan d 0 rest).after = none) :
    lexemes d before ('\'' :: rest) = Lexeme.openQuote :: (Region.scan d 0 rest).lexemes := by
  obtain ⟨_, _, _, hNext⟩ := Lexeme.next_eq_regionQuote h
  have hRest : ('\'' :: rest).drop (Lexeme.next d before ('\'' :: rest)).length = rest := by
    rw [hNext]
    rfl
  rw [lexemes]
  simp only [h, if_true, hRest]
  split
  · rw [hNext]
    rfl
  · next found hFound =>
    rw [hRest, hAfter] at hFound
    cases hFound

end Head

/-! ### From one step to all lexemes -/

section Steps

variable {d : Dialect} {P : Lexeme → Prop}

theorem forall_mem_region
    (hStep : ∀ count c rest, P ((Region.next d count (c :: rest)).lexeme (c :: rest)))
    (count : Nat) (text : List Char) : ∀ x ∈ (Region.scan d count text).lexemes, P x := by
  fun_induction Region.scan d count text with
  | case1 => simp
  | case2 count c rest m remaining hClose =>
    intro x hx
    rw [List.mem_singleton.1 hx]
    exact hStep count c rest
  | case3 count c rest m remaining hClose region ih =>
    intro x hx
    rcases List.mem_cons.1 hx with rfl | hRest
    · exact hStep count c rest
    · exact ih x hRest

/-- **What every step gives, all lexemes have.** -/
theorem forall_mem_lexemes
    (hStep : ∀ before c rest, P ((Lexeme.next d before (c :: rest)).lexeme (c :: rest)))
    (hRegion : ∀ count c rest, P ((Region.next d count (c :: rest)).lexeme (c :: rest)))
    (hOpen : P Lexeme.openQuote) (before : Option TokenKind) (text : List Char) :
    ∀ x ∈ lexemes d before text, P x := by
  fun_induction lexemes d before text with
  | case1 => simp
  | case2 before c rest m remaining hQuote region hNone =>
    intro x hx
    obtain ⟨_, hText, _, hNext⟩ := Lexeme.next_eq_regionQuote hQuote
    rcases List.mem_cons.1 hx with rfl | hRest
    · simp only [m, hNext, hText]
      exact hOpen
    · exact forall_mem_region hRegion 0 remaining x hRest
  | case3 before c rest m remaining hQuote region after hClosed ih =>
    intro x hx
    rcases List.mem_cons.1 hx with rfl | hRest
    · exact hStep before c rest
    · rcases List.mem_append.1 hRest with hIn | hAfter
      · exact forall_mem_region hRegion 0 remaining x hIn
      · exact ih x hAfter
  | case4 before c rest m remaining hPlain ih =>
    intro x hx
    rcases List.mem_cons.1 hx with rfl | hRest
    · exact hStep before c rest
    · exact ih x hRest

theorem forall_mem_settleDots (hDot : ∀ text, P ⟨text, .accept .dot⟩ → P ⟨text, .reject .strayDot⟩)
    {xs : List Lexeme} (h : ∀ x ∈ xs, P x) (before : Option TokenKind) :
    ∀ x ∈ settleDots before xs, P x := by
  induction xs generalizing before with
  | nil => simp [settleDots]
  | cons x xs ih =>
    intro y hy
    rw [settleDots] at hy
    rcases List.mem_cons.1 hy with rfl | hRest
    · have hx := h x List.mem_cons_self
      rcases x.settled_cases (before.any (·.isNamePart) && xs.head?.any (·.kind.isNamePart)) with
        hSelf | ⟨text, rfl, -, hStray⟩
      · rw [hSelf]
        exact hx
      · rw [hStray]
        exact hDot text hx
    · exact ih (fun z hz => h z (List.mem_cons_of_mem x hz)) _ y hRest

/-- The lexemes from which the tokens of a source text are drawn. -/
def settledLexemes (d : Dialect) (source : List Char) : List Lexeme :=
  settleDots none (lexemes d none source)

theorem forall_mem_settledLexemes
    (hStep : ∀ before c rest, P ((Lexeme.next d before (c :: rest)).lexeme (c :: rest)))
    (hRegion : ∀ count c rest, P ((Region.next d count (c :: rest)).lexeme (c :: rest)))
    (hOpen : P Lexeme.openQuote)
    (hDot : ∀ text, P ⟨text, .accept .dot⟩ → P ⟨text, .reject .strayDot⟩) (source : List Char) :
    ∀ x ∈ settledLexemes d source, P x :=
  forall_mem_settleDots hDot (forall_mem_lexemes hStep hRegion hOpen none source) none

end Steps

/-! ### Reading takes characters -/

theorem Match.lexeme_text_ne_nil {m : Match} {text : List Char} (hLength : 0 < m.length)
    (hText : text ≠ []) : (m.lexeme text).text ≠ [] := by
  intro hNil
  rcases List.take_eq_nil_iff.1 hNil with hZero | hEmpty
  · omega
  · exact hText hEmpty

theorem text_ne_nil_of_mem_settledLexemes (d : Dialect) (source : List Char) :
    ∀ x ∈ settledLexemes d source, x.text ≠ [] := by
  apply forall_mem_settledLexemes
  · intro before c rest
    exact Match.lexeme_text_ne_nil (Lexeme.next_pos d before _) (List.cons_ne_nil c rest)
  · intro count c rest
    exact Match.lexeme_text_ne_nil (Region.next_pos d count c rest) (List.cons_ne_nil c rest)
  · exact List.cons_ne_nil _ _
  · intro text hText
    exact hText

end SqlTemplate
