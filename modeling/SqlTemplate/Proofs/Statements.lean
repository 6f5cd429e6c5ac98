import SqlTemplate.Dialect.Preset
import SqlTemplate.Proofs.Regions
import SqlTemplate.Proofs.Sealing

/-!
# Reading statement by statement

A semicolon that is a token ends a statement: what stands before it and what
stands after it are read as if they were texts of their own.

* `Region.scan_sealed`: a quoted region that closes before the semicolon is read
  the same way in the text cut after the semicolon.  It is also planned the same
  way, because the placeholder that the plan looks for is inside it.
* `lexemes_split`: the lexemes of a text split at a semicolon.
* `scan_split`: so do its tokens and its diagnostics.
-/

namespace SqlTemplate

open Verdict (accept reject)

variable {d : Dialect}

theorem Match.lexeme_append {m : Match} {u : List Char} (h : m.length ≤ u.length) (s : List Char) :
    m.lexeme (u ++ s) = m.lexeme u := by
  rw [Match.lexeme, Match.lexeme, List.take_append_of_le_length h]

/-! ### Quoted regions before a semicolon -/

namespace Region

variable {count : Nat}

/-- One step inside a quoted region is sealed. -/
theorem next_sealed {u t : List Char} (hu : u ≠ [])
    (h : (next d count (u ++ ';' :: t)).length ≤ u.length) :
    next d count (u ++ [';']) = next d count (u ++ ';' :: t) := by
  cases u with
  | nil => exact absurd rfl hu
  | cons c v =>
    have hOpenSwap : Placeholder.startsOpen (c :: (v ++ [';'])) =
        Placeholder.startsOpen (c :: (v ++ ';' :: t)) :=
      Brackets.startsWith_swap (by decide) (c :: v) t []
    have hHeadSwap : (v ++ [';']).head? = (v ++ ';' :: t).head? :=
      head_swap (fun _ _ _ => rfl) v ';' t []
    rcases next_cases d count c (v ++ ';' :: t) with
      ⟨hSpace, hNext⟩ | ⟨hOpen, hNext⟩ | ⟨rfl, hHead, hNext⟩ | ⟨hSpace, hOpen, hQuote, hNext⟩
    · rw [List.cons_append, List.cons_append, hNext, next_of_isSpace d count hSpace,
        ← List.cons_append, ← List.cons_append, stopsAt_spaceRun.swap (c :: v) t []]
    · rw [List.cons_append, hNext, judged_length] at h
      rw [List.cons_append, List.cons_append, hNext,
        next_of_startsOpen d count (hOpenSwap.trans hOpen)]
      exact congrArg (judged count) (Placeholder.scan_sealed (u := c :: v) hOpen h)
    · rw [List.cons_append, List.cons_append, hNext, next_of_close d (by rwa [hHeadSwap])]
    · rw [List.cons_append, hNext, Match.reject_length] at h
      rw [List.cons_append, List.cons_append, hNext,
        next_of_content d hSpace (hOpenSwap.trans hOpen) (by rwa [hHeadSwap])]
      exact congrArg (Match.reject .unexpectedRegionText)
        (contentLength_swap (u := c :: v) (by decide) (by decide) (by decide) h [])

/-- As long as no placeholder opens, one step does not change what the opening
quote is planned to be. -/
theorem plan_step {text : List Char} (hText : text ≠ [])
    (hInner : (next d 0 text).verdict ≠ accept .regionQuote)
    (hOpen : Placeholder.startsOpen text = false) :
    QuotePlan.ofText (d.on .backslashEscapes) (text.drop (next d 0 text).length) = .region ↔
      QuotePlan.ofText (d.on .backslashEscapes) text = .region := by
  obtain ⟨c, rest, rfl⟩ := List.exists_cons_of_ne_nil hText
  rcases next_cases d 0 c rest with
    ⟨_, hNext⟩ | ⟨hBraces, _⟩ | ⟨_, _, hNext⟩ | ⟨_, _, _, hNext⟩
  · rw [hNext]
    exact QuotePlan.ofText_drop_spaceRun
  · rw [hOpen] at hBraces
    cases hBraces
  · rw [hNext] at hInner
    exact absurd rfl hInner
  · rw [hNext]
    exact QuotePlan.ofText_drop_contentLength

/-- **A quoted region that closes before a semicolon is sealed**, and so is the
plan that opened it. -/
theorem scan_sealed {t : List Char} : ∀ {w : List Char} {count : Nat} {after : List Char},
    (scan d count (w ++ ';' :: t)).after = some after → t.length < after.length →
      ∃ w', after = w' ++ ';' :: t ∧
        scan d count (w ++ [';']) =
          ⟨(scan d count (w ++ ';' :: t)).lexemes, some (w' ++ [';'])⟩ ∧
        (count = 0 →
          QuotePlan.ofText (d.on .backslashEscapes) (w ++ ';' :: t) = .region →
          QuotePlan.ofText (d.on .backslashEscapes) (w ++ [';']) = .region) := by
  intro w
  induction hLength : w.length using Nat.strongRecOn generalizing w with
  | ind k ih =>
    subst hLength
    intro count after hAfter hLong
    have hNe : ∀ s, w ++ ';' :: s ≠ [] := by simp
    by_cases hClose : (next d count (w ++ ';' :: t)).verdict = accept .regionQuote
    · cases w with
      | nil => exact absurd (next_eq_regionQuote hClose).1 (by decide)
      | cons c v =>
        rw [List.cons_append] at hClose
        obtain ⟨rfl, hHead⟩ := next_eq_regionQuote hClose
        have hHeadSwap : (v ++ [';']).head? = (v ++ ';' :: t).head? :=
          head_swap (fun _ _ _ => rfl) v ';' t []
        rw [List.cons_append, scan_of_close hHead] at hAfter
        cases hAfter
        refine ⟨v, rfl, ?_, ?_⟩
        · rw [List.cons_append, List.cons_append, scan_of_close hHead,
            scan_of_close (by rwa [hHeadSwap])]
        · intro hCount hPlan
          rw [List.cons_append, ofText_of_close (hHead hCount)] at hPlan
          cases hPlan
    · -- the step before the closing quote ends before the semicolon
      rw [scan_of_inner (hNe t) hClose] at hAfter ⊢
      have hShort := length_after_lt hAfter
      rw [List.length_drop, List.length_append, List.length_cons] at hShort
      have hLe : (next d count (w ++ ';' :: t)).length ≤ w.length := by omega
      have hPos : 0 < (next d count (w ++ ';' :: t)).length := by
        cases w with
        | nil => exact next_pos d count ';' t
        | cons c v => exact next_pos d count c (v ++ ';' :: t)
      have hw : w ≠ [] := List.length_pos_iff.1 (by omega)
      have hNext := next_sealed hw hLe
      have hOpen : Placeholder.startsOpen (w ++ [';']) = Placeholder.startsOpen (w ++ ';' :: t) :=
        Brackets.startsWith_swap (by decide) w t []
      have hDrop : ∀ s, (w ++ ';' :: s).drop (next d count (w ++ ';' :: t)).length =
          w.drop (next d count (w ++ ';' :: t)).length ++ ';' :: s :=
        fun s => List.drop_append_of_le_length hLe
      rw [hDrop] at hAfter
      obtain ⟨w', hEq, hScan, hPlan⟩ := ih _ (by rw [List.length_drop]; omega) rfl hAfter hLong
      refine ⟨w', hEq, ?_, ?_⟩
      · rw [scan_of_inner (hNe []) (by rwa [hNext]), hNext, hOpen, hDrop, hDrop, hScan,
          Match.lexeme_append hLe, Match.lexeme_append hLe]
      · rintro rfl hRegion
        cases hBraces : Placeholder.startsOpen (w ++ ';' :: t) with
        | true => exact QuotePlan.ofText_of_startsOpen (hOpen.trans hBraces)
        | false =>
          rw [← plan_step (hNe []) (by rwa [hNext]) (hOpen.trans hBraces), hNext, hDrop]
          refine hPlan (by rw [hBraces]; rfl) ?_
          rw [← hDrop, plan_step (hNe t) hClose hBraces]
          exact hRegion

end Region

/-! ### Lexemes before and after a semicolon -/

/-- The lexeme of a semicolon. -/
def Lexeme.semicolon : Lexeme := ⟨[';'], .accept .semicolon⟩

theorem Symbol.eq_semicolon_of_punctuationKind? {c : Char}
    (h : punctuationKind? c = some .semicolon) : c = ';' := by
  grind [punctuationKind?]

namespace Lexeme

/-- **A semicolon is punctuation**, and it is also punctuation as the last
character of a text. -/
theorem next_eq_semicolon {before : Option TokenKind} {text : List Char}
    (h : (next d before text).verdict = accept .semicolon) :
    ∃ t, text = ';' :: t ∧ next d before text = .accept .semicolon 1 ∧
      next d before [';'] = .accept .semicolon 1 := by
  have hText : ∃ t, text = ';' :: t ∧ next d before text = .accept .semicolon 1 := by
    rcases next_cases d before text with ⟨f, hf, hVerdict⟩ | hNext
    · rw [h] at hVerdict
      obtain rfl : f = .punctuation := by
        cases f <;> revert hVerdict <;> decide
      generalize next d before text = m at hf h
      simp only [Form.recogniser] at hf
      unfold Symbol.punctuation? at hf
      split at hf
      · cases hf
      · next c rest =>
        obtain ⟨kind, hKind, rfl⟩ := Option.map_eq_some_iff.1 hf
        cases h
        rw [Symbol.eq_semicolon_of_punctuationKind? hKind]
        exact ⟨rest, rfl, rfl⟩
    · rw [hNext] at h
      cases h
  obtain ⟨t, rfl, hNext⟩ := hText
  refine ⟨t, rfl, hNext, ?_⟩
  -- the forms that come before punctuation do not apply here, nor do they at the end of a text
  have hForms : forms d before = (Form.all.take 11).map (Form.recogniser d before) ++
      (Form.all.drop 11).map (Form.recogniser d before) := rfl
  have hEarlier : Recogniser.firstOf ((Form.all.take 11).map (Form.recogniser d before))
      (';' :: t) = none := by
    cases hFound : Recogniser.firstOf ((Form.all.take 11).map (Form.recogniser d before))
        (';' :: t) with
    | none => rfl
    | some m =>
      obtain ⟨r, hMem, hr⟩ := List.exists_of_findSome?_eq_some hFound
      obtain ⟨f, hf, rfl⟩ := List.mem_map.1 hMem
      have hVerdict := (f.recogniser_yields d before _ m hr).2
      have hm : next d before (';' :: t) = m := by
        rw [next, hForms, Recogniser.firstOf, List.findSome?_append]
        rw [Recogniser.firstOf] at hFound
        rw [hFound]
        rfl
      rw [← hm, h] at hVerdict
      have hNone : ∀ g ∈ Form.all.take 11, accept .semicolon ∉ g.verdicts := by decide
      exact absurd hVerdict (hNone f hf)
  have hSealed : Recogniser.Sealed
      (Recogniser.firstOf ((Form.all.take 11).map (Form.recogniser d before))) := by
    apply Recogniser.Sealed.firstOf
    intro r hr
    obtain ⟨f, _, rfl⟩ := List.mem_map.1 hr
    exact f.recogniser_sealed d before
  have hLast := (hSealed [] t).1 hEarlier
  rw [next, hForms, Recogniser.firstOf, List.findSome?_append]
  rw [Recogniser.firstOf] at hLast
  rw [List.nil_append] at hLast
  rw [hLast]
  rfl

/-- What stands at an apostrophe is decided by the plan for it. -/
theorem apostrophe?_eq_next (d : Dialect) (before : Option TokenKind) (rest : List Char) :
    Region.apostrophe? d ('\'' :: rest) = some (next d before ('\'' :: rest)) := by
  have hSpace : Symbol.whitespace? ('\'' :: rest) = none := Region.whitespace?_eq_none (by decide)
  have hClose : Placeholder.startsClose ('\'' :: rest) = false := by cases rest <;> rfl
  obtain ⟨m, hm⟩ : ∃ m, Region.apostrophe? d ('\'' :: rest) = some m := by
    cases hPlan : QuotePlan.ofText (d.on .backslashEscapes) rest <;>
      simp [Region.apostrophe?, hPlan]
  simp [next, Recogniser.firstOf, forms, hSpace, Placeholder.match?, Placeholder.unmatchedClose?,
    Region.startsOpen_apostrophe, hClose, hm]

theorem next_of_region (before : Option TokenKind) {rest : List Char}
    (h : QuotePlan.ofText (d.on .backslashEscapes) rest = .region) :
    next d before ('\'' :: rest) = .accept .regionQuote 1 := by
  rw [← Option.some.injEq, ← apostrophe?_eq_next, Region.apostrophe?, h]

theorem next_some_semicolon (d : Dialect) (text : List Char) :
    next d (some .semicolon) text = next d none text := rfl

end Lexeme

theorem lexemes_some_semicolon (d : Dialect) (text : List Char) :
    lexemes d (some .semicolon) text = lexemes d none text := by
  cases text with
  | nil => rw [lexemes, lexemes]
  | cons c rest => rw [lexemes, lexemes, Lexeme.next_some_semicolon]

theorem ne_semicolon_of_inner {x : Lexeme} (h : x.verdict ∈ Region.innerVerdicts) :
    x ≠ Lexeme.semicolon := by
  rintro rfl
  exact absurd h (by decide)

/-- A split of two lists laid end to end at something that is not in the first
one is a split of the second one. -/
theorem exists_append_of_forall {α : Type} {P : α → Prop} {as bs xs ys : List α} {y : α}
    (h : as ++ bs = xs ++ y :: ys) (has : ∀ a ∈ as, P a) (hy : ¬P y) :
    ∃ more, xs = as ++ more ∧ bs = more ++ y :: ys := by
  rcases List.append_eq_append_iff.1 h with ⟨more, rfl, hMore⟩ | ⟨more, hIn, hMore⟩
  · exact ⟨more, rfl, hMore⟩
  · cases more with
    | nil =>
      rw [List.append_nil] at hIn
      exact ⟨[], by rw [List.append_nil, hIn], hMore.symm⟩
    | cons x more =>
      rw [List.cons_append, List.cons.injEq] at hMore
      refine absurd (has y ?_) hy
      rw [hIn, hMore.1]
      simp

/-- A semicolon that is read after a quoted region stands after the region. -/
theorem exists_after_region {text after : List Char}
    (hAfter : (Region.scan d 0 text).after = some after) {xs ys zs : List Lexeme}
    (h : Lexeme.quote :: ((Region.scan d 0 text).lexemes ++ zs) = xs ++ Lexeme.semicolon :: ys) :
    ∃ more, xs = Lexeme.quote :: ((Region.scan d 0 text).lexemes ++ more) ∧
      zs = more ++ Lexeme.semicolon :: ys := by
  obtain ⟨inside, hLexemes, hVerdicts⟩ := Region.scan_closed hAfter
  have hNone : ∀ x ∈ Lexeme.quote :: (Region.scan d 0 text).lexemes, x ≠ Lexeme.semicolon := by
    intro x hx
    rw [hLexemes, List.mem_cons, List.mem_append, List.mem_singleton] at hx
    rcases hx with rfl | hIn | rfl
    · exact fun hSemicolon => by cases hSemicolon
    · exact ne_semicolon_of_inner (hVerdicts x hIn)
    · exact fun hSemicolon => by cases hSemicolon
  rw [← List.cons_append] at h
  exact exists_append_of_forall h hNone (fun hNe => hNe rfl)

/-- A region before a semicolon is closed before it, and reading goes on after it
in the same way in the text cut after the semicolon. -/
theorem split_of_region {before : Option TokenKind} {v t : List Char} {xs ys : List Lexeme}
    (hQuote : (Lexeme.next d before ('\'' :: (v ++ ';' :: t))).verdict = accept .regionQuote)
    (h : lexemes d before ('\'' :: (v ++ ';' :: t)) = xs ++ Lexeme.semicolon :: ys)
    (hText : textOf xs = '\'' :: v) :
    ∃ w region more, w.length ≤ v.length ∧ xs = Lexeme.quote :: (region ++ more) ∧
      lexemes d (some .regionQuote) (w ++ ';' :: t) = more ++ Lexeme.semicolon :: ys ∧
      textOf more = w ∧
      lexemes d before ('\'' :: (v ++ [';'])) =
        Lexeme.quote :: (region ++ lexemes d (some .regionQuote) (w ++ [';'])) := by
  cases hAfter : (Region.scan d 0 (v ++ ';' :: t)).after with
  | none =>
    rw [lexemes_of_open hQuote hAfter] at h
    have hMem : Lexeme.semicolon ∈
        Lexeme.openQuote :: (Region.scan d 0 (v ++ ';' :: t)).lexemes := by
      rw [h]
      simp
    rcases List.mem_cons.1 hMem with hOpen | hIn
    · cases hOpen
    · exact absurd rfl (ne_semicolon_of_inner (Region.scan_open hAfter _ hIn))
  | some after =>
    rw [lexemes_of_closed hQuote hAfter] at h
    obtain ⟨more, rfl, hMore⟩ := exists_after_region hAfter h
    have hBody : textOf (Region.scan d 0 (v ++ ';' :: t)).lexemes ++ textOf more = v := by
      rw [textOf_cons, textOf_append] at hText
      exact (List.cons.inj hText).2
    have hEq : after = textOf more ++ ';' :: t := by
      have hWhole := Region.text_lexemes d 0 (v ++ ';' :: t)
      rw [hAfter, Option.getD_some] at hWhole
      refine List.append_cancel_left (hWhole.trans ?_)
      rw [← List.append_assoc]
      exact congrArg (· ++ ';' :: t) hBody.symm
    subst hEq
    obtain ⟨w', hSame, hScan, hPlanSealed⟩ := Region.scan_sealed hAfter (by simp; omega)
    obtain rfl := List.append_cancel_right hSame
    obtain ⟨_, hRest, hPlan, _⟩ := Lexeme.next_eq_regionQuote hQuote
    obtain rfl := (List.cons.inj hRest).2
    have hNext := Lexeme.next_of_region before (hPlanSealed rfl hPlan)
    refine ⟨textOf more, _, more, ?_, rfl, hMore, rfl, ?_⟩
    · have hLength := congrArg List.length hBody
      rw [List.length_append] at hLength
      omega
    · rw [lexemes_of_closed (by rw [hNext]; rfl) (by rw [hScan]), hScan]

/-- **The lexemes of a text split at a semicolon.** -/
theorem lexemes_split {t : List Char} : ∀ {u : List Char} {before : Option TokenKind}
    {xs ys : List Lexeme},
    lexemes d before (u ++ ';' :: t) = xs ++ Lexeme.semicolon :: ys → textOf xs = u →
      lexemes d before (u ++ [';']) = xs ++ [Lexeme.semicolon] ∧ ys = lexemes d none t := by
  intro u
  induction hLength : u.length using Nat.strongRecOn generalizing u with
  | ind k ih =>
    subst hLength
    intro before xs ys h hText
    have hNe : ∀ s, u ++ ';' :: s ≠ [] := by simp
    by_cases hQuote : (Lexeme.next d before (u ++ ';' :: t)).verdict = accept .regionQuote
    · obtain ⟨rest, hRest, _⟩ := Lexeme.next_eq_regionQuote hQuote
      cases u with
      | nil => cases hRest
      | cons c v =>
        obtain rfl : c = '\'' := (List.cons.inj hRest).1
        rw [List.cons_append] at h hQuote ⊢
        obtain ⟨w, region, more, hShort, rfl, hMore, hw, hCut⟩ := split_of_region hQuote h hText
        obtain ⟨hCutMore, hAfter⟩ := ih w.length (Nat.lt_succ_of_le hShort) rfl hMore hw
        refine ⟨?_, hAfter⟩
        rw [hCut, hCutMore, List.cons_append, List.append_assoc]
    · rw [lexemes_of_plain (hNe t) hQuote] at h
      cases xs with
      | nil =>
        rw [textOf_nil] at hText
        subst hText
        rw [List.nil_append, List.nil_append, List.cons.injEq] at h
        obtain ⟨hHead, rfl⟩ := h
        have hVerdict : (Lexeme.next d before (';' :: t)).verdict = accept .semicolon :=
          congrArg Lexeme.verdict hHead
        obtain ⟨_, _, hNext, hLast⟩ := Lexeme.next_eq_semicolon hVerdict
        refine ⟨?_, ?_⟩
        · rw [List.nil_append, lexemes_of_plain (List.cons_ne_nil _ _) (by rw [hLast]; simp), hLast]
          simp only [Match.accept_length, List.drop_succ_cons, List.drop_zero, lexemes]
          rfl
        · rw [hNext]
          exact lexemes_some_semicolon d t
      | cons x xs =>
        rw [List.cons_append, List.cons.injEq] at h
        obtain ⟨rfl, hRest⟩ := h
        have hLe : (Lexeme.next d before (u ++ ';' :: t)).length ≤ u.length := by
          have hIn := Lexeme.next_le d before (hNe t)
          have hShort := congrArg List.length hText
          rw [textOf_cons, List.length_append, Match.lexeme, List.length_take,
            Nat.min_eq_left hIn] at hShort
          omega
        have hPos := Lexeme.next_pos d before (u ++ ';' :: t)
        have hDrop : ∀ s, (u ++ ';' :: s).drop (Lexeme.next d before (u ++ ';' :: t)).length =
            u.drop (Lexeme.next d before (u ++ ';' :: t)).length ++ ';' :: s :=
          fun s => List.drop_append_of_le_length hLe
        have hTail : textOf xs = u.drop (Lexeme.next d before (u ++ ';' :: t)).length := by
          rw [textOf_cons, Match.lexeme_append hLe] at hText
          exact List.append_cancel_left (hText.trans (Match.lexeme_text_append _ u).symm)
        have hNext := Lexeme.next_sealed hLe hQuote
        rw [hDrop] at hRest
        obtain ⟨hCut, hAfter⟩ := ih _ (by rw [List.length_drop]; omega) rfl hRest hTail
        refine ⟨?_, hAfter⟩
        rw [lexemes_of_plain (hNe []) (by rwa [hNext]), hNext, hDrop, hCut,
          Match.lexeme_append hLe, Match.lexeme_append hLe, List.cons_append]

/-! ### Dots before and after a semicolon -/

theorem settleDots_some_semicolon (xs : List Lexeme) :
    settleDots (some .semicolon) xs = settleDots none xs := by
  cases xs <;> rfl

/-- No name goes on after a semicolon, so that dots can be decided on its two
sides apart. -/
theorem settleDots_split (before : Option TokenKind) (xs ys : List Lexeme) :
    settleDots before (xs ++ Lexeme.semicolon :: ys) =
      settleDots before (xs ++ [Lexeme.semicolon]) ++ settleDots none ys := by
  induction xs generalizing before with
  | nil =>
    have hKind : Lexeme.semicolon.kind = .semicolon := rfl
    have hSelf (between : Bool) : Lexeme.semicolon.settled between = Lexeme.semicolon :=
      Lexeme.settled_of_ne_dot (by decide)
    simp only [List.nil_append, settleDots, hSelf, hKind, settleDots_some_semicolon]
    rfl
  | cons x xs ih =>
    have hHead : (xs ++ Lexeme.semicolon :: ys).head? = (xs ++ [Lexeme.semicolon]).head? := by
      cases xs <;> rfl
    rw [List.cons_append, settleDots, ih, hHead, List.cons_append, settleDots, List.cons_append]

/-- A lexeme among the decided ones, unless it is a stray dot, is one among the
undecided ones. -/
theorem exists_of_settleDots {y : Lexeme} (hy : y.verdict ≠ reject .strayDot)
    {us vs : List Lexeme} : ∀ {before : Option TokenKind} {zs : List Lexeme},
      settleDots before zs = us ++ y :: vs →
        ∃ xs ys, zs = xs ++ y :: ys ∧ textOf xs = textOf us := by
  induction us with
  | nil =>
    intro before zs h
    cases zs with
    | nil => cases h
    | cons z zs =>
      rw [settleDots, List.nil_append, List.cons.injEq] at h
      obtain ⟨rfl, -⟩ := h
      rcases z.settled_cases (before.any (·.isNamePart) && zs.head?.any (·.kind.isNamePart)) with
        hSelf | ⟨text, -, -, hStray⟩
      · exact ⟨[], zs, by rw [hSelf, List.nil_append], rfl⟩
      · exact absurd (congrArg Lexeme.verdict hStray) hy
  | cons u us ih =>
    intro before zs h
    cases zs with
    | nil => cases h
    | cons z zs =>
      rw [settleDots, List.cons_append, List.cons.injEq] at h
      obtain ⟨xs, ys, rfl, hText⟩ := ih h.2
      refine ⟨z :: xs, ys, rfl, ?_⟩
      rw [textOf_cons, textOf_cons, hText, ← h.1, Lexeme.settled_text]

/-- A lexeme accepted as a semicolon is a semicolon. -/
theorem eq_semicolon_of_mem_settledLexemes (d : Dialect) (source : List Char) :
    ∀ x ∈ settledLexemes d source, x.kind = .semicolon → x = Lexeme.semicolon := by
  apply forall_mem_settledLexemes
  · intro before c rest hKind
    have hVerdict := (Verdict.kind_eq_iff (by decide)).1 hKind
    obtain ⟨t, hText, hNext, _⟩ := Lexeme.next_eq_semicolon hVerdict
    rw [hNext, hText]
    rfl
  · intro count c rest hKind
    have hSemicolon : (Region.next d count (c :: rest)).verdict = accept .semicolon :=
      (Verdict.kind_eq_iff (by decide)).1 hKind
    have hVerdict := Region.next_verdict d count c rest
    rw [hSemicolon] at hVerdict
    exact absurd hVerdict (by decide)
  · exact fun hKind => by cases hKind
  · exact fun text _ hKind => by cases hKind

/-- **The lexemes of a source text split at a semicolon**, with their dots
decided. -/
theorem settledLexemes_split {source : List Char} {us vs : List Lexeme}
    (h : settledLexemes d source = us ++ Lexeme.semicolon :: vs) :
    ∃ t, source = textOf us ++ [';'] ++ t ∧
      settledLexemes d source =
        settledLexemes d (textOf us ++ [';']) ++ settledLexemes d t := by
  obtain ⟨xs, ys, hLexemes, hText⟩ := exists_of_settleDots (by decide) h
  have hSource : source = textOf us ++ ';' :: textOf ys := by
    have hWhole := text_lexemes d none source
    rw [hLexemes] at hWhole
    rw [← hWhole, ← hText]
    exact textOf_append xs (Lexeme.semicolon :: ys)
  refine ⟨textOf ys, by rw [hSource, List.append_assoc, List.singleton_append], ?_⟩
  rw [hSource] at hLexemes
  obtain ⟨hCut, hAfter⟩ := lexemes_split hLexemes hText
  rw [settledLexemes, hSource, hLexemes, settleDots_split, settledLexemes, settledLexemes, hCut,
    ← hAfter]

/-! ### Tokens before and after a semicolon -/

/-- The position at an offset into a source text. -/
def Position.ofOffset (source : List Char) (offset : Nat) : Position :=
  Position.start.advance (Text.takeBytes offset source)

/-- A span of the text that starts at offset `base` of the source, as a span of
the source: both offsets are moved by `base`, and line and column are those of
the place in the source. -/
def Span.within (source : List Char) (base : Nat) (s : Span) : Span :=
  ⟨s.start + base, s.stop + base, (Position.ofOffset source (s.start + base)).line,
    (Position.ofOffset source (s.start + base)).column⟩

def Token.within (source : List Char) (base : Nat) (t : Token) : Token :=
  ⟨t.kind, t.span.within source base⟩

def Diagnostic.within (source : List Char) (base : Nat) (e : Diagnostic) : Diagnostic :=
  ⟨e.fault, e.span.within source base⟩

theorem Span.ofText_within (head before text after : List Char) :
    (Span.ofText (Position.start.advance before) text).within (head ++ (before ++ (text ++ after)))
        (Text.byteLength head) =
      Span.ofText (Position.start.advance (head ++ before)) text := by
  have hStart : (Position.start.advance before).offset + Text.byteLength head =
      Text.byteLength (head ++ before) := by
    rw [start_advance_offset, Text.byteLength_append, Nat.add_comm]
  have hTake : Text.takeBytes (Text.byteLength (head ++ before))
      (head ++ (before ++ (text ++ after))) = head ++ before := by
    rw [← List.append_assoc, Text.takeBytes_append]
  have hStop :
      (Position.start.advance before).offset + Text.byteLength text + Text.byteLength head =
        Text.byteLength (head ++ before) + Text.byteLength text := by
    rw [← hStart]
    omega
  simp only [Span.within, Span.ofText]
  rw [hStop, hStart, Position.ofOffset, hTake, start_advance_offset]

/-- Tokens of lexemes that stand later in a source are the same tokens, seen from
the start of the source. -/
theorem tokensAt_within (head before : List Char) (xs : List Lexeme) :
    tokensAt (Position.start.advance (head ++ before)) xs =
      (tokensAt (Position.start.advance before) xs).map
        (Token.within (head ++ (before ++ textOf xs)) (Text.byteLength head)) := by
  induction xs generalizing before with
  | nil => rfl
  | cons x xs ih =>
    have hRest := ih (before ++ x.text)
    rw [← List.append_assoc, Position.advance_append _ (head ++ before),
      Position.advance_append _ before, List.append_assoc before] at hRest
    rw [tokensAt_cons, tokensAt_cons, List.map_cons, textOf_cons, Token.within, Span.ofText_within,
      hRest]

theorem diagnosticsAt_within (head before : List Char) (xs : List Lexeme) :
    diagnosticsAt (Position.start.advance (head ++ before)) xs =
      (diagnosticsAt (Position.start.advance before) xs).map
        (Diagnostic.within (head ++ (before ++ textOf xs)) (Text.byteLength head)) := by
  induction xs generalizing before with
  | nil => rfl
  | cons x xs ih =>
    have hRest := ih (before ++ x.text)
    rw [← List.append_assoc, Position.advance_append _ (head ++ before),
      Position.advance_append _ before, List.append_assoc before] at hRest
    rw [diagnosticsAt_cons, diagnosticsAt_cons, List.map_append, textOf_cons, hRest]
    cases x.verdict with
    | accept kind => rfl
    | reject fault =>
      have hSpan := Span.ofText_within head before x.text (textOf xs)
      simp only [TokenStream.diagnostic?, Option.toList_some, List.map_cons, List.map_nil,
        Diagnostic.within, hSpan]

/-- **Reading splits at semicolons.**  Where a token of a source text is a
semicolon, the tokens and the diagnostics of the source are those of the text up
to the semicolon and with it, and then those of the text after it. -/
theorem scan_split (d : Dialect) (source : List Char) (t : Token)
    (hMem : t ∈ (d.scan source).tokens) (hKind : t.kind = .semicolon) :
    (d.scan source).tokens =
        (d.scan (Text.takeBytes t.span.stop source)).tokens ++
          (d.scan (Text.dropBytes t.span.stop source)).tokens.map
            (Token.within source t.span.stop) ∧
      (d.scan source).diagnostics =
        (d.scan (Text.takeBytes t.span.stop source)).diagnostics ++
          (d.scan (Text.dropBytes t.span.stop source)).diagnostics.map
            (Diagnostic.within source t.span.stop) := by
  rw [scan_eq] at hMem
  obtain ⟨us, x, vs, hLexemes, rfl⟩ := mem_tokensAt hMem
  obtain rfl : x = Lexeme.semicolon :=
    eq_semicolon_of_mem_settledLexemes d source x (by rw [hLexemes]; simp) hKind
  obtain ⟨after, hSource, hSplit⟩ := settledLexemes_split hLexemes
  have hStop : (Span.ofText (Position.start.advance (textOf us)) Lexeme.semicolon.text).stop =
      Text.byteLength (textOf us ++ [';']) := by
    rw [Span.ofText, start_advance_offset, Text.byteLength_append]
    rfl
  have hTake : Text.takeBytes (Text.byteLength (textOf us ++ [';'])) source =
      textOf us ++ [';'] := by
    rw [hSource, Text.takeBytes_append]
  have hDrop : Text.dropBytes (Text.byteLength (textOf us ++ [';'])) source = after := by
    rw [hSource, Text.dropBytes_append]
  have hHead := textOf_settledLexemes d (textOf us ++ [';'])
  have hTail := textOf_settledLexemes d after
  have hTokens := tokensAt_within (textOf us ++ [';']) [] (settledLexemes d after)
  have hDiagnostics := diagnosticsAt_within (textOf us ++ [';']) [] (settledLexemes d after)
  rw [List.append_nil, List.nil_append, hTail, ← hSource, Position.advance_nil]
    at hTokens hDiagnostics
  simp only [hStop, hTake, hDrop, scan_eq]
  rw [hSplit, tokensAt_append, diagnosticsAt_append, hHead, hTokens, hDiagnostics]
  exact ⟨rfl, rfl⟩

/-- A semicolon in a string does not end the first of two statements, and the
second one has a stray dot. -/
theorem scan_split_string :
    (⟨.semicolon, ⟨5, 6, 1, 6⟩⟩ : Token) ∈
        (Preset.standard.rules.scan "'a;b';\n.".toList).tokens ∧
      (Preset.standard.rules.scan "'a;b';\n.".toList).tokens =
        (Preset.standard.rules.scan "'a;b';".toList).tokens ++
          (Preset.standard.rules.scan "\n.".toList).tokens.map
            (Token.within "'a;b';\n.".toList 6) ∧
      (Preset.standard.rules.scan "'a;b';\n.".toList).diagnostics =
        (Preset.standard.rules.scan "'a;b';".toList).diagnostics ++
          (Preset.standard.rules.scan "\n.".toList).diagnostics.map
            (Diagnostic.within "'a;b';\n.".toList 6) := by
  have hMem : (⟨.semicolon, ⟨5, 6, 1, 6⟩⟩ : Token) ∈
      (Preset.standard.rules.scan "'a;b';\n.".toList).tokens := by
    decide +kernel
  exact ⟨hMem, scan_split Preset.standard.rules "'a;b';\n.".toList
    ⟨.semicolon, ⟨5, 6, 1, 6⟩⟩ hMem rfl⟩

end SqlTemplate
