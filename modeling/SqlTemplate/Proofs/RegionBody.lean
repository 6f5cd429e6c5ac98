import SqlTemplate.Proofs.Placeholders
import SqlTemplate.Proofs.Placement
import SqlTemplate.Proofs.Run

/-!
# Inside a quoted region

What one quoted region is made of, read from just after its opening quote.

* `Region.scan_closed`, `Region.scan_open`: the closing quote is the last lexeme
  of a region, and everything before it is whitespace, a placeholder or rejected.
* `Region.countP_placeholder_le`: at most one placeholder is accepted.
* `Region.exists_opener`: if an apostrophe is planned as a region, some lexeme of
  the region starts with two braces.
* `Region.exists_inside`: nothing in the region is rejected exactly if it is one
  well-formed placeholder with whitespace around it (`Region.IsForm`).
-/

namespace SqlTemplate

open Verdict (accept reject)

theorem Placeholder.two_le_scan (d : Dialect) {text : List Char} (h : startsOpen text = true) :
    2 ≤ (scan d text).length := by
  have hText := Brackets.two_le_of_startsWith h
  have hRecover : ∀ start fault unclosed, 2 ≤ (recover text start fault unclosed).length := by
    intro start fault unclosed
    unfold recover
    split
    · simp only [Match.reject_length]
      omega
    · exact hText
  rw [scan_eq]
  split
  · unfold recoverNested
    split
    · simp only [Match.reject_length, expressionStart]
      omega
    · exact hText
  · split
    · exact hRecover _ _ _
    · split
      · simp only [Match.accept_length]
        omega
      · exact hRecover _ _ _

/-! ### What an apostrophe opens -/

namespace QuotePlan

theorem shift_eq_region_iff {k : Nat} {plan : QuotePlan} :
    plan.shift k = .region ↔ plan = .region := by
  cases plan <;> simp [shift]

/-- Whitespace does not change whether an apostrophe opens a region. -/
theorem ofText_drop_spaceRun {escapes : Bool} {text : List Char} :
    ofText escapes (text.drop (Text.spaceRun text)) = .region ↔ ofText escapes text = .region := by
  induction text with
  | nil => exact Iff.rfl
  | cons c rest ih =>
    cases hSpace : Text.isSpace c with
    | false => simp [Text.spaceRun, hSpace]
    | true =>
      have hSlash : c ≠ '\\' := by rintro rfl; revert hSpace; decide
      have hQuote : c ≠ '\'' := by rintro rfl; revert hSpace; decide
      have hBrace : c ≠ '{' := by rintro rfl; revert hSpace; decide
      have hRun : Text.spaceRun (c :: rest) = Text.spaceRun rest + 1 := by
        simp [Text.spaceRun, hSpace]
      rw [hRun, List.drop_succ_cons, ih]
      simp [ofText_cons, hSlash, hQuote, hBrace, shift_eq_region_iff]

/-- Neither does other text before the first placeholder. -/
theorem ofText_drop_contentLength {escapes : Bool} : ∀ {text : List Char},
    ofText escapes (text.drop (Region.contentLength escapes 0 text)) = .region ↔
      ofText escapes text = .region := by
  intro text
  induction hLength : text.length using Nat.strongRecOn generalizing text with
  | ind k ih =>
    subst hLength
    cases text with
    | nil => exact Iff.rfl
    | cons c rest =>
      rw [Region.contentLength_cons]
      rw [List.length_cons] at ih
      split
      · next hQuote =>
        rw [beq_iff_eq] at hQuote
        subst hQuote
        cases rest with
        | nil => exact Iff.rfl
        | cons a after =>
          simp only [beq_self_eq_true, Bool.true_and]
          rw [List.length_cons] at ih
          split
          · next hDouble =>
            rw [List.drop_succ_cons, List.drop_succ_cons, ih after.length (by omega) rfl]
            simp [ofText_cons, hDouble, shift_eq_region_iff]
          · exact Iff.rfl
      · next hQuote =>
        split
        · next hEscape =>
          cases rest with
          | nil => simp [hEscape, ofText]
          | cons a after =>
            rw [List.length_cons] at ih
            rw [List.drop_succ_cons, List.drop_succ_cons, ih after.length (by omega) rfl]
            simp [ofText_cons, hEscape, shift_eq_region_iff]
        · next hEscape =>
          split
          · exact Iff.rfl
          · next hStop =>
            rw [Bool.or_eq_true, not_or, Placeholder.startsOpen_iff] at hStop
            have hBrace : ¬(c == '{' && rest.head? == some '{') = true := by
              rw [Bool.and_eq_true, beq_iff_eq, beq_iff_eq]
              rintro ⟨rfl, hHead⟩
              obtain ⟨after, rfl⟩ := List.head?_eq_some_iff.1 hHead
              exact hStop.2 ⟨after, rfl⟩
            rw [List.drop_succ_cons, ih rest.length (by omega) rfl, ofText_cons, if_neg hEscape,
              if_neg hQuote, if_neg hBrace, shift_eq_region_iff]

theorem ofText_of_startsOpen {escapes : Bool} {text : List Char}
    (h : Placeholder.startsOpen text = true) : ofText escapes text = .region := by
  obtain ⟨after, rfl⟩ := Placeholder.startsOpen_iff.1 h
  simp [ofText_cons]

end QuotePlan

namespace Region

variable {d : Dialect} {count : Nat}

/-! ### One step -/

/-- The verdicts that a text between the quotes of a region can get. -/
def innerVerdicts : List Verdict :=
  accept .whitespace :: reject .secondPlaceholder :: reject .unexpectedRegionText ::
    Placeholder.verdicts

theorem mem_innerVerdicts {v : Verdict} (h : v ∈ verdicts) (hQuote : v ≠ accept .regionQuote) :
    v ∈ innerVerdicts := by
  simp only [verdicts, innerVerdicts, List.mem_cons] at h ⊢
  rcases h with h | h | h
  · exact Or.inl h
  · exact absurd h hQuote
  · exact Or.inr h

theorem startsOpen_of_isSpace {c : Char} (h : Text.isSpace c = true) (rest : List Char) :
    Placeholder.startsOpen (c :: rest) = false := by
  rw [← Bool.not_eq_true, Placeholder.startsOpen_iff]
  rintro ⟨_, ⟨⟩⟩
  revert h
  decide

theorem scan_of_close {rest : List Char} (h : count = 0 → rest.head? ≠ some '\'') :
    scan d count ('\'' :: rest) = ⟨[Lexeme.quote], some rest⟩ := by
  rw [scan]
  simp only [next_of_close d h, Match.accept_verdict, if_true]
  rfl

theorem scan_of_inner {text : List Char} (hText : text ≠ [])
    (h : (next d count text).verdict ≠ accept .regionQuote) :
    scan d count text =
      ⟨(next d count text).lexeme text ::
          (scan d (if Placeholder.startsOpen text then count + 1 else count)
            (text.drop (next d count text).length)).lexemes,
        (scan d (if Placeholder.startsOpen text then count + 1 else count)
            (text.drop (next d count text).length)).after⟩ := by
  cases text with
  | nil => exact absurd rfl hText
  | cons c rest =>
    rw [scan]
    simp only [h, if_false]

/-! ### The lexemes of a region -/

/-- A region that closes ends with its quote. -/
theorem scan_closed {text after : List Char} (h : (scan d count text).after = some after) :
    ∃ inside, (scan d count text).lexemes = inside ++ [Lexeme.quote] ∧
      ∀ x ∈ inside, x.verdict ∈ innerVerdicts := by
  fun_induction scan d count text with
  | case1 => simp at h
  | case2 count c rest m remaining hClose =>
    obtain ⟨rfl, hHead⟩ := next_eq_regionQuote hClose
    refine ⟨[], ?_, by simp⟩
    simp only [m, next_of_close d hHead]
    rfl
  | case3 count c rest m remaining hInner region ih =>
    obtain ⟨inside, hLexemes, hVerdicts⟩ := ih h
    refine ⟨m.lexeme (c :: rest) :: inside, by rw [hLexemes, List.cons_append], ?_⟩
    intro x hx
    rcases List.mem_cons.1 hx with rfl | hMem
    · exact mem_innerVerdicts (next_verdict d count c rest) hInner
    · exact hVerdicts x hMem

/-- A region that does not close has no closing quote. -/
theorem scan_open {text : List Char} (h : (scan d count text).after = none) :
    ∀ x ∈ (scan d count text).lexemes, x.verdict ∈ innerVerdicts := by
  fun_induction scan d count text with
  | case1 => simp
  | case2 count c rest m remaining hClose => simp at h
  | case3 count c rest m remaining hInner region ih =>
    intro x hx
    rcases List.mem_cons.1 hx with rfl | hMem
    · exact mem_innerVerdicts (next_verdict d count c rest) hInner
    · exact ih h x hMem

/-- Only the first placeholder of a region is accepted. -/
theorem judged_kind_ne (h : 0 < count) (m : Match) : (judged count m).kind ≠ .placeholder := by
  unfold judged
  split
  · exact fun hKind => by cases hKind
  · next hFirst =>
    intro hKind
    simp [hKind, h] at hFirst

/-- **At most one placeholder of a region is accepted**, and none after another
one. -/
theorem countP_placeholder_le (d : Dialect) (count : Nat) (text : List Char) :
    (scan d count text).lexemes.countP (·.kind = .placeholder) ≤ if count = 0 then 1 else 0 := by
  fun_induction scan d count text with
  | case1 => simp
  | case2 count c rest m remaining hClose =>
    have hKind : (m.lexeme (c :: rest)).kind = .regionQuote := by
      rw [Lexeme.kind, Match.lexeme, hClose]
      rfl
    simp [hKind]
  | case3 count c rest m remaining hInner region ih =>
    rw [List.countP_cons]
    rcases next_cases d count c rest with
      ⟨hSpace, hNext⟩ | ⟨hOpen, hNext⟩ | ⟨_, _, hNext⟩ | ⟨_, hOpen, _, hNext⟩
    · have hOpen := startsOpen_of_isSpace hSpace rest
      have hKind : (m.lexeme (c :: rest)).kind = .whitespace := by
        simp only [m, hNext]
        rfl
      simpa [hKind, region, hOpen] using ih
    · have hRest : region.lexemes.countP (·.kind = .placeholder) = 0 := by
        simpa [region, hOpen] using ih
      rw [hRest]
      by_cases hCount : count = 0
      · rw [if_pos hCount]
        split <;> omega
      · have hKind : (m.lexeme (c :: rest)).kind ≠ .placeholder := by
          simp only [m, hNext]
          exact judged_kind_ne (Nat.pos_of_ne_zero hCount) _
        simp [hKind]
    · exact absurd (by simp only [m, hNext, Match.accept_verdict]) hInner
    · have hKind : (m.lexeme (c :: rest)).kind = .error := by
        simp only [m, hNext]
        rfl
      simpa [hKind, region, hOpen] using ih

/-- A quote that closes a region before any placeholder would have closed a
string. -/
theorem ofText_of_close {escapes : Bool} {rest : List Char} (h : rest.head? ≠ some '\'') :
    QuotePlan.ofText escapes ('\'' :: rest) = .string 1 := by
  cases rest with
  | nil => simp [QuotePlan.ofText_cons]
  | cons a after =>
    have ha : a ≠ '\'' := by simpa using h
    simp [QuotePlan.ofText_cons, ha]

/-- **A planned region holds an opener**: some lexeme of the region starts with
two braces. -/
theorem exists_opener {text : List Char}
    (h : QuotePlan.ofText (d.on .backslashEscapes) text = .region) :
    ∃ x ∈ (scan d 0 text).lexemes, Placeholder.startsOpen x.text = true := by
  generalize hCount : 0 = count
  fun_induction scan d count text with
  | case1 => simp [QuotePlan.ofText] at h
  | case2 count c rest m remaining hClose =>
    obtain ⟨rfl, hHead⟩ := next_eq_regionQuote hClose
    rw [ofText_of_close (hHead hCount.symm)] at h
    cases h
  | case3 count c rest m remaining hInner region ih =>
    subst hCount
    rcases next_cases d 0 c rest with
      ⟨hSpace, hNext⟩ | ⟨hOpen, hNext⟩ | ⟨_, _, hNext⟩ | ⟨_, hOpen, _, hNext⟩
    · have hOpen := startsOpen_of_isSpace hSpace rest
      have hRemaining : remaining = (c :: rest).drop (Text.spaceRun (c :: rest)) := by
        simp only [remaining, m, hNext, Match.accept_length]
      obtain ⟨x, hx, hText⟩ := ih (by rw [hRemaining]; exact QuotePlan.ofText_drop_spaceRun.2 h)
        (by simp [hOpen])
      exact ⟨x, List.mem_cons_of_mem _ hx, hText⟩
    · refine ⟨m.lexeme (c :: rest), List.mem_cons_self, ?_⟩
      have hTwo := Placeholder.two_le_scan d hOpen
      obtain ⟨after, hText⟩ := Placeholder.startsOpen_iff.1 hOpen
      obtain ⟨k, hk⟩ := Nat.exists_eq_add_of_le hTwo
      rw [Placeholder.startsOpen_iff]
      refine ⟨after.take k, ?_⟩
      rw [Nat.add_comm] at hk
      simp only [m, hNext, Match.lexeme, judged_length, hk]
      rw [hText]
      rfl
    · exact absurd (by simp only [m, hNext, Match.accept_verdict]) hInner
    · have hRemaining : remaining =
          (c :: rest).drop (contentLength (d.on .backslashEscapes) 0 (c :: rest)) := by
        simp only [remaining, m, hNext, Match.reject_length]
      obtain ⟨x, hx, hText⟩ :=
        ih (by rw [hRemaining]; exact QuotePlan.ofText_drop_contentLength.2 h) (by simp [hOpen])
      exact ⟨x, List.mem_cons_of_mem _ hx, hText⟩

/-! ### Regions without faults -/

/-- An accepted lexeme of a region is whitespace or a well-formed placeholder. -/
def Sound (d : Dialect) (x : Lexeme) : Prop :=
  (x.verdict = accept .whitespace → ∀ c ∈ x.text, Text.isSpace c = true) ∧
    (x.verdict = accept .placeholder → Placeholder.IsWhole d x.text)

theorem isWhole_of_scan {text : List Char} (hOpen : Placeholder.startsOpen text = true)
    (h : (Placeholder.scan d text).verdict = accept .placeholder) :
    Placeholder.IsWhole d (text.take (Placeholder.scan d text).length) := by
  have hLe := Placeholder.scan_le d (Brackets.two_le_of_startsWith hOpen)
  have hScan : Placeholder.match? d text =
      some (.accept .placeholder (Placeholder.scan d text).length) := by
    rw [Placeholder.match?, if_pos hOpen, Match.accept, ← h]
  generalize (Placeholder.scan d text).length = n at hLe hScan ⊢
  have hTake : (text.take n).length = n := by rw [List.length_take, Nat.min_eq_left hLe]
  rw [← Placeholder.match?_append_iff (text.drop n), List.take_append_drop, hTake]
  exact hScan

theorem next_sound (d : Dialect) (count : Nat) (c : Char) (rest : List Char) :
    Sound d ((next d count (c :: rest)).lexeme (c :: rest)) := by
  rcases next_cases d count c rest with
    ⟨_, hNext⟩ | ⟨hOpen, hNext⟩ | ⟨_, _, hNext⟩ | ⟨_, _, _, hNext⟩
  · rw [hNext]
    refine ⟨fun _ b hb => ?_, fun h => by cases h⟩
    have hTake : (c :: rest).take (Text.spaceRun (c :: rest)) =
        (c :: rest).takeWhile Text.isSpace :=
      (List.prefix_iff_eq_take.1 (List.takeWhile_prefix Text.isSpace)).symm
    rw [Match.lexeme, Match.accept_length, hTake] at hb
    exact List.all_eq_true.1 List.all_takeWhile b hb
  · rw [hNext]
    have hScan := Placeholder.scan_verdict d (c :: rest)
    rcases judged_verdict count (Placeholder.scan d (c :: rest)) with hSame | hSecond
    · refine ⟨fun h => ?_, fun h => ?_⟩
      · have hSpace : (Placeholder.scan d (c :: rest)).verdict = accept .whitespace :=
          hSame.symm.trans h
        rw [hSpace] at hScan
        exact absurd hScan (by decide)
      · rw [Match.lexeme, judged_length]
        exact isWhole_of_scan hOpen (hSame.symm.trans h)
    · refine ⟨fun h => ?_, fun h => ?_⟩
      · cases hSecond.symm.trans h
      · cases hSecond.symm.trans h
  · rw [hNext]
    exact ⟨fun h => (by cases h), fun h => (by cases h)⟩
  · rw [hNext]
    exact ⟨fun h => (by cases h), fun h => (by cases h)⟩

/-- A text made of one well-formed placeholder with whitespace around it. -/
def IsForm (d : Dialect) (text : List Char) : Prop :=
  ∃ left p right, text = left ++ (p ++ right) ∧ (∀ c ∈ left, Text.isSpace c = true) ∧
    Placeholder.IsWhole d p ∧ ∀ c ∈ right, Text.isSpace c = true

/-- Reading whitespace adds nothing but whitespace. -/
theorem scan_spaces (d : Dialect) (count : Nat) {w rest : List Char}
    (hw : ∀ c ∈ w, Text.isSpace c = true)
    (hRest : ∀ c, rest.head? = some c → Text.isSpace c = false) :
    ∀ x ∈ (scan d count (w ++ rest)).lexemes,
      x.kind = .whitespace ∨ x ∈ (scan d count rest).lexemes := by
  cases w with
  | nil => exact fun x hx => Or.inr hx
  | cons c w =>
    have hSpace := hw c List.mem_cons_self
    have hNext : next d count (c :: (w ++ rest)) = _ := next_of_isSpace d count hSpace
    have hRun : Text.spaceRun (c :: (w ++ rest)) = (c :: w).length :=
      Placeholder.spaceRun_append hw hRest
    have hDrop : (c :: (w ++ rest)).drop (c :: w).length = rest := by
      rw [← List.cons_append, List.drop_left]
    rw [hRun] at hNext
    intro x hx
    rw [List.cons_append, scan_of_inner (List.cons_ne_nil _ _) (by rw [hNext]; simp), hNext,
      startsOpen_of_isSpace hSpace, Match.accept_length, hDrop] at hx
    rcases List.mem_cons.1 hx with rfl | hMem
    · exact Or.inl rfl
    · exact Or.inr hMem

/-- Reading a well-formed placeholder adds nothing but the placeholder. -/
theorem scan_isWhole {p : List Char} (hp : Placeholder.IsWhole d p) (rest : List Char) :
    ∀ x ∈ (scan d 0 (p ++ rest)).lexemes,
      x.kind = .placeholder ∨ x ∈ (scan d 1 rest).lexemes := by
  have hMatch := (Placeholder.match?_append_iff rest).2 hp
  simp only [Placeholder.match?, Option.ite_none_right_eq_some, Option.some.injEq] at hMatch
  obtain ⟨hOpen, hScan⟩ := hMatch
  have hNext : next d 0 (p ++ rest) = .accept .placeholder p.length := by
    rw [next_of_startsOpen d 0 hOpen, hScan]
    rfl
  have hNe : p ++ rest ≠ [] := by
    intro hNil
    rw [hNil] at hOpen
    cases hOpen
  intro x hx
  rw [scan_of_inner hNe (by rw [hNext]; simp), hNext, if_pos hOpen, Match.accept_length,
    List.drop_left] at hx
  rcases List.mem_cons.1 hx with rfl | hMem
  · exact Or.inl rfl
  · exact Or.inr hMem

theorem kind_ne_error_of_isForm {text : List Char} (h : IsForm d text) (after : List Char) :
    ∀ x ∈ (scan d 0 (text ++ '\'' :: after)).lexemes, x.kind ≠ .error := by
  obtain ⟨left, p, right, rfl, hLeft, hp, hRight⟩ := h
  have hBrace : ∀ c, (p ++ (right ++ '\'' :: after)).head? = some c → Text.isSpace c = false := by
    have hMatch := (Placeholder.match?_append_iff (right ++ '\'' :: after)).2 hp
    simp only [Placeholder.match?, Option.ite_none_right_eq_some] at hMatch
    obtain ⟨tail, hText⟩ := Placeholder.startsOpen_iff.1 hMatch.1
    rw [hText]
    rintro c ⟨⟩
    decide
  have hQuote : ∀ c, ('\'' :: after).head? = some c → Text.isSpace c = false := by
    rintro c ⟨⟩
    decide
  rw [List.append_assoc, List.append_assoc]
  intro x hx
  rcases scan_spaces d 0 hLeft hBrace x hx with hKind | hx
  · rw [hKind]
    exact fun h => by cases h
  · rcases scan_isWhole hp _ x hx with hKind | hx
    · rw [hKind]
      exact fun h => by cases h
    · rcases scan_spaces d 1 hRight hQuote x hx with hKind | hx
      · rw [hKind]
        exact fun h => by cases h
      · rw [scan_of_close (fun h => by cases h)] at hx
        rw [List.mem_singleton.1 hx]
        exact fun h => by cases h

/-- Sound lexemes among which one is accepted as a placeholder and the others as
whitespace have the form of a region. -/
theorem isForm_of_sound {inside : List Lexeme} (hSound : ∀ x ∈ inside, Sound d x)
    (hVerdicts : ∀ x ∈ inside, x.verdict ∈ innerVerdicts)
    (hOne : inside.countP (·.kind = .placeholder) ≤ 1)
    (hOpener : ∃ x ∈ inside, Placeholder.startsOpen x.text = true)
    (hFaultless : ∀ x ∈ inside, x.kind ≠ .error) : IsForm d (textOf inside) := by
  have hAccepted : ∀ x ∈ inside,
      x.verdict = accept .whitespace ∨ x.verdict = accept .placeholder := by
    intro x hx
    have hVerdict := hVerdicts x hx
    have hKind := hFaultless x hx
    obtain ⟨text, verdict⟩ := x
    cases verdict with
    | accept kind => simpa [innerVerdicts, Placeholder.verdicts] using hVerdict
    | reject fault => exact absurd rfl hKind
  have hSpaces : ∀ ys : List Lexeme, (∀ y ∈ ys, y ∈ inside) →
      ys.countP (·.kind = .placeholder) = 0 → ∀ c ∈ textOf ys, Text.isSpace c = true := by
    intro ys hys hNone c hc
    obtain ⟨y, hy, hcy⟩ := List.mem_flatMap.1 hc
    rcases hAccepted y (hys y hy) with hSpace | hPlaceholder
    · exact (hSound y (hys y hy)).1 hSpace c hcy
    · refine absurd ?_ (List.countP_eq_zero.1 hNone y hy)
      simp [Lexeme.kind, hPlaceholder, Verdict.kind]
  obtain ⟨x, hx, hOpen⟩ := hOpener
  have hVerdict : x.verdict = accept .placeholder := by
    rcases hAccepted x hx with hSpace | hPlaceholder
    · obtain ⟨rest, hText⟩ := Placeholder.startsOpen_iff.1 hOpen
      have hBrace := (hSound x hx).1 hSpace '{' (by rw [hText]; exact List.mem_cons_self)
      exact absurd hBrace (by decide)
    · exact hPlaceholder
  obtain ⟨us, vs, rfl⟩ := List.append_of_mem hx
  have hKind : x.kind = .placeholder := by rw [Lexeme.kind, hVerdict]; rfl
  rw [List.countP_append, List.countP_cons_of_pos (by simpa using hKind)] at hOne
  refine ⟨textOf us, x.text, textOf vs, by rw [textOf_append, textOf_cons], ?_,
    (hSound x hx).2 hVerdict, ?_⟩
  · exact hSpaces us (fun y hy => List.mem_append_left _ hy) (by omega)
  · exact hSpaces vs (fun y hy => List.mem_append_right _ (List.mem_cons_of_mem _ hy)) (by omega)

/-- What stands between the quotes of a region. -/
structure Inside (d : Dialect) (inside : List Lexeme) : Prop where
  verdicts : ∀ x ∈ inside, x.verdict ∈ innerVerdicts
  one : inside.countP (·.kind = .placeholder) ≤ 1
  opener : ∃ x ∈ inside, Placeholder.startsOpen x.text = true
  faultless_iff : (∀ x ∈ inside, x.kind ≠ .error) ↔ IsForm d (textOf inside)

/-- **A planned region that closes is its inside and its closing quote.** -/
theorem exists_inside {text after : List Char}
    (hPlan : QuotePlan.ofText (d.on .backslashEscapes) text = .region)
    (hAfter : (scan d 0 text).after = some after) :
    ∃ inside, (scan d 0 text).lexemes = inside ++ [Lexeme.quote] ∧ Inside d inside := by
  obtain ⟨inside, hLexemes, hVerdicts⟩ := scan_closed hAfter
  have hOne : inside.countP (·.kind = .placeholder) ≤ 1 := by
    have hAll := countP_placeholder_le d 0 text
    rw [hLexemes, List.countP_append, if_pos rfl] at hAll
    omega
  have hOpener : ∃ x ∈ inside, Placeholder.startsOpen x.text = true := by
    obtain ⟨x, hx, hOpen⟩ := exists_opener hPlan
    rw [hLexemes] at hx
    rcases List.mem_append.1 hx with hMem | hQuote
    · exact ⟨x, hMem, hOpen⟩
    · rw [List.mem_singleton.1 hQuote] at hOpen
      cases hOpen
  have hSound : ∀ x ∈ inside, Sound d x := by
    intro x hx
    refine forall_mem_region (next_sound d) 0 text x ?_
    rw [hLexemes]
    exact List.mem_append_left _ hx
  have hText : text = textOf inside ++ '\'' :: after := by
    have hWhole := text_lexemes d 0 text
    rw [hLexemes, hAfter, List.flatMap_append] at hWhole
    rw [← hWhole]
    simp [textOf, Lexeme.quote]
  refine ⟨inside, hLexemes, hVerdicts, hOne, hOpener,
    isForm_of_sound hSound hVerdicts hOne hOpener, ?_⟩
  intro hForm x hx
  refine kind_ne_error_of_isForm hForm after x ?_
  rw [← hText, hLexemes]
  exact List.mem_append_left _ hx

end Region

end SqlTemplate
