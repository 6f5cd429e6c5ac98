import SqlTemplate.Proofs.Locality
import SqlTemplate.Proofs.Recognition

/-!
# The shape of a placeholder

A text starts with a well-formed placeholder exactly if it starts with two
braces, whitespace, an expression, whitespace and two braces
(`Placeholder.match?_eq_accept_iff`).  Since the expression ends at whitespace or
at a brace, it does not see what stands after the placeholder: a placeholder is
accepted at the head of a text exactly if it is accepted by itself
(`Placeholder.match?_append_iff`).
-/

namespace SqlTemplate.Placeholder

variable {d : Dialect}

/-! ### Expressions -/

/-- An expression starts neither with whitespace nor with a brace. -/
theorem expression_head {text : List Char} {n : Nat} (h : expression d text = .ok n) :
    ∃ a rest, text = a :: rest ∧ Text.isSpace a = false ∧ a ≠ '{' := by
  cases text with
  | nil => simp [expression] at h
  | cons a rest =>
    refine ⟨a, rest, rfl, ?_, ?_⟩
    · cases hSpace : Text.isSpace a with
      | false => rfl
      | true =>
        have hStop := Text.isStop_of_isSpace hSpace
        obtain ⟨_, _, _, hQuote, hDouble, _⟩ := Text.ne_of_isStop hStop
        simp [expression, hQuote, hDouble, Text.isDigit_of_isStop hStop,
          Text.isWordStart_of_isStop hStop] at h
    · rintro rfl
      have hWord : Text.isWordStart '{' = false := by decide +kernel
      simp [expression, hWord] at h

/-- **An expression that ends before a stop is the same expression** whatever
stands after the stop. -/
theorem expression_swap {c : Char} (hc : Text.isStop c = true) {u t : List Char} {n : Nat}
    (h : expression d (u ++ c :: t) = .ok n) (hn : n ≤ u.length) (t' : List Char) :
    expression d (u ++ c :: t') = .ok n := by
  cases u with
  | nil =>
    obtain ⟨_, _, _, hQuote, hDouble, _⟩ := Text.ne_of_isStop hc
    simp [expression, hQuote, hDouble, Text.isDigit_of_isStop hc,
      Text.isWordStart_of_isStop hc] at h
  | cons a u =>
    simp only [List.cons_append, expression] at h ⊢
    split at h
    · next hQuote =>
      rw [if_pos hQuote]
      split at h
      · next m hm =>
        cases h
        obtain ⟨k, hk, rfl⟩ := Option.map_eq_some_iff.1 hm
        rw [List.length_cons] at hn
        have hClosing := Quoted.closing?_swap hk (by omega) t'
        simp only [Quoted.length?, List.tail_cons, hClosing, Option.map_some]
      · simp at h
    · next hQuote =>
      rw [if_neg hQuote]
      split at h
      · next hDigit =>
        rw [if_pos hDigit, ← h, ← List.cons_append, ← List.cons_append,
          (stopsAt_numberLength hc).swap]
      · next hDigit =>
        rw [if_neg hDigit]
        split at h
        · next hWord =>
          rw [if_pos hWord, ← h, ← List.cons_append, ← List.cons_append,
            (stopsAt_pathLength hc).swap]
        · simp at h

/-! ### Shapes -/

/-- A text that starts with a placeholder: its whitespace, its expression and
what stands after it. -/
structure Shape (d : Dialect) (text left inner right after : List Char) : Prop where
  text_eq : text = '{' :: '{' :: (left ++ (inner ++ (right ++ '}' :: '}' :: after)))
  left_space : ∀ c ∈ left, Text.isSpace c = true
  right_space : ∀ c ∈ right, Text.isSpace c = true
  inner_eq : expression d (inner ++ (right ++ '}' :: '}' :: after)) = .ok inner.length

/-- What stands after a placeholder may be anything. -/
theorem Shape.swap {text left inner right after : List Char}
    (h : Shape d text left inner right after) (after' : List Char) :
    Shape d ('{' :: '{' :: (left ++ (inner ++ (right ++ '}' :: '}' :: after'))))
      left inner right after' := by
  refine ⟨rfl, h.left_space, h.right_space, ?_⟩
  have hInner := h.inner_eq
  cases right with
  | nil =>
    exact expression_swap (c := '}') (by decide +kernel) hInner (Nat.le_refl _) _
  | cons c right =>
    have hStop := Text.isStop_of_isSpace (h.right_space c List.mem_cons_self)
    exact expression_swap hStop hInner (Nat.le_refl _) _

theorem spaceRun_append {w rest : List Char} (hw : ∀ c ∈ w, Text.isSpace c = true)
    (hRest : ∀ c, rest.head? = some c → Text.isSpace c = false) :
    Text.spaceRun (w ++ rest) = w.length := by
  have hNone : rest.takeWhile Text.isSpace = [] := by
    cases rest with
    | nil => rfl
    | cons c rest => simp [hRest c rfl]
  rw [Text.spaceRun, List.takeWhile_append_of_pos hw, hNone, List.append_nil]

/-- Every text is whitespace and a text that does not start with any. -/
theorem exists_space_split (text : List Char) :
    ∃ w rest, text = w ++ rest ∧ (∀ c ∈ w, Text.isSpace c = true) ∧
      ∀ c, rest.head? = some c → Text.isSpace c = false := by
  refine ⟨text.takeWhile Text.isSpace, text.dropWhile Text.isSpace,
    List.takeWhile_append_dropWhile.symm, List.all_eq_true.1 List.all_takeWhile, ?_⟩
  intro c hc
  have hStop := List.head?_dropWhile_not Text.isSpace text
  rw [hc] at hStop
  simpa using hStop

theorem expressionStart_append {left rest : List Char} (hLeft : ∀ c ∈ left, Text.isSpace c = true)
    (hRest : ∀ c, rest.head? = some c → Text.isSpace c = false) :
    expressionStart ('{' :: '{' :: (left ++ rest)) = left.length + 2 ∧
      ('{' :: '{' :: (left ++ rest)).drop (left.length + 2) = rest := by
  refine ⟨?_, by simp⟩
  rw [expressionStart, List.drop_succ_cons, List.drop_succ_cons, List.drop_zero,
    spaceRun_append hLeft hRest, Nat.add_comm]

theorem startsClose_iff {text : List Char} :
    startsClose text = true ↔ ∃ after, text = '}' :: '}' :: after := by
  match text with
  | [] => simp [startsClose, Brackets.startsWith]
  | [c] => simp [startsClose, Brackets.startsWith]
  | a :: b :: after => simp [startsClose, Brackets.startsWith, Brackets.placeholder]

theorem startsOpen_iff {text : List Char} :
    startsOpen text = true ↔ ∃ after, text = '{' :: '{' :: after := by
  match text with
  | [] => simp [startsOpen, Brackets.startsWith]
  | [c] => simp [startsOpen, Brackets.startsWith]
  | a :: b :: after => simp [startsOpen, Brackets.startsWith, Brackets.placeholder]

theorem recover_ne_accept (text : List Char) (start : Nat) (fault unclosed : Fault)
    (kind : TokenKind) (n : Nat) : recover text start fault unclosed ≠ .accept kind n := by
  unfold recover
  split <;> exact fun h => by cases congrArg Match.verdict h

theorem recoverNested_ne_accept (text : List Char) (start : Nat) (kind : TokenKind) (n : Nat) :
    recoverNested text start ≠ .accept kind n := by
  unfold recoverNested
  split <;> exact fun h => by cases congrArg Match.verdict h

/-- What follows the opener and the whitespace after it decides what becomes of a
placeholder. -/
theorem scan_append {left rest : List Char} (hLeft : ∀ c ∈ left, Text.isSpace c = true)
    (hRest : ∀ c, rest.head? = some c → Text.isSpace c = false) {n : Nat} :
    scan d ('{' :: '{' :: (left ++ rest)) = .accept .placeholder n ↔
      startsOpen rest = false ∧ ∃ k, expression d rest = .ok k ∧
        startsClose (rest.drop (k + Text.spaceRun (rest.drop k))) = true ∧
        n = left.length + k + Text.spaceRun (rest.drop k) + 4 := by
  obtain ⟨hStart, hDrop⟩ := expressionStart_append hLeft hRest
  have hDropMore : ∀ k,
      ('{' :: '{' :: (left ++ rest)).drop (left.length + 2 + k) = rest.drop k := by
    intro k
    rw [← List.drop_drop, hDrop]
  rw [scan_eq, hStart, hDrop]
  cases hOpen : startsOpen rest with
  | true =>
    simp only [if_true, Bool.true_eq_false, false_and, iff_false]
    exact recoverNested_ne_accept _ _ _ _
  | false =>
    simp only [Bool.false_eq_true, if_false, true_and]
    cases hExpression : expression d rest with
    | error fault =>
      simp only [reduceCtorEq, false_and, exists_false, iff_false]
      exact recover_ne_accept _ _ _ _ _ _
    | ok k =>
      have hClose : closeStart ('{' :: '{' :: (left ++ rest)) k =
          left.length + 2 + (k + Text.spaceRun (rest.drop k)) := by
        rw [closeStart, hStart, hDropMore, Nat.add_assoc]
      simp only [hClose, hDropMore, Except.ok.injEq, exists_eq_left']
      cases hMark : startsClose (rest.drop (k + Text.spaceRun (rest.drop k))) with
      | true =>
        simp only [if_true, true_and, Match.accept, Match.mk.injEq, and_true]
        omega
      | false =>
        simp only [Bool.false_eq_true, if_false, false_and, iff_false]
        exact recover_ne_accept _ _ _ _ _ _

/-- **A placeholder is accepted exactly if it has the shape of one.** -/
theorem match?_eq_accept_iff {text : List Char} {n : Nat} :
    match? d text = some (.accept .placeholder n) ↔
      ∃ left inner right after, Shape d text left inner right after ∧
        n = left.length + inner.length + right.length + 4 := by
  constructor
  · intro h
    simp only [match?, Option.ite_none_right_eq_some, Option.some.injEq] at h
    obtain ⟨hOpen, hScan⟩ := h
    obtain ⟨body, rfl⟩ := startsOpen_iff.1 hOpen
    obtain ⟨left, rest, rfl, hLeft, hRest⟩ := exists_space_split body
    obtain ⟨_, k, hk, hClose, rfl⟩ := (scan_append hLeft hRest).1 hScan
    obtain ⟨right, close, hSplit, hRight, hCloseHead⟩ := exists_space_split (rest.drop k)
    rw [hSplit, spaceRun_append hRight hCloseHead] at hClose ⊢
    rw [← List.drop_drop, hSplit, List.drop_left] at hClose
    obtain ⟨after, rfl⟩ := startsClose_iff.1 hClose
    have hLength := expression_le hk
    have hTake : (rest.take k).length = k := by rw [List.length_take, Nat.min_eq_left hLength]
    have hWhole : rest.take k ++ (right ++ '}' :: '}' :: after) = rest := by
      rw [← hSplit, List.take_append_drop]
    refine ⟨left, rest.take k, right, after, ⟨?_, hLeft, hRight, ?_⟩, ?_⟩
    · rw [hWhole]
    · rw [hWhole, hTake, hk]
    · rw [hTake]
  · rintro ⟨left, inner, right, after, ⟨rfl, hLeft, hRight, hInner⟩, rfl⟩
    obtain ⟨a, tail, hHead, hSpace, hBrace⟩ := expression_head hInner
    have hRest : ∀ c, (inner ++ (right ++ '}' :: '}' :: after)).head? = some c →
        Text.isSpace c = false := by
      rw [hHead]
      rintro c ⟨⟩
      exact hSpace
    have hOpen : startsOpen (inner ++ (right ++ '}' :: '}' :: after)) = false := by
      rw [← Bool.not_eq_true, startsOpen_iff, hHead]
      rintro ⟨_, ⟨⟩⟩
      exact hBrace rfl
    have hRun : Text.spaceRun (right ++ '}' :: '}' :: after) = right.length := by
      refine spaceRun_append hRight ?_
      rintro c ⟨⟩
      decide
    rw [match?, if_pos (startsOpen_iff.2 ⟨_, rfl⟩), Option.some.injEq, scan_append hLeft hRest]
    refine ⟨hOpen, inner.length, hInner, ?_, ?_⟩
    · rw [← List.drop_drop, List.drop_left, hRun, List.drop_left]
      exact startsClose_iff.2 ⟨after, rfl⟩
    · rw [List.drop_left, hRun]

/-! ### Placeholders by themselves -/

/-- The text is one well-formed placeholder and nothing else. -/
def IsWhole (d : Dialect) (text : List Char) : Prop :=
  match? d text = some (.accept .placeholder text.length)

/-- **A placeholder is read the same way whatever stands after it.** -/
theorem match?_append_iff {p : List Char} (rest : List Char) :
    match? d (p ++ rest) = some (.accept .placeholder p.length) ↔ IsWhole d p := by
  have hSwap : ∀ rest rest' : List Char,
      match? d (p ++ rest) = some (.accept .placeholder p.length) →
        match? d (p ++ rest') = some (.accept .placeholder p.length) := by
    intro rest rest' h
    obtain ⟨left, inner, right, after, hShape, hLength⟩ := match?_eq_accept_iff.1 h
    have hText := hShape.text_eq
    have hWhole : '{' :: '{' :: (left ++ (inner ++ (right ++ ['}', '}']))) ++ after =
        p ++ rest := by
      rw [hText]
      simp
    have hp : p = '{' :: '{' :: (left ++ (inner ++ (right ++ ['}', '}']))) := by
      refine (List.append_inj_left hWhole ?_).symm
      simp only [List.length_cons, List.length_append, List.length_nil]
      omega
    refine match?_eq_accept_iff.2 ⟨left, inner, right, rest', ?_, hLength⟩
    have hNew : p ++ rest' =
        '{' :: '{' :: (left ++ (inner ++ (right ++ '}' :: '}' :: rest'))) := by
      rw [hp]
      simp
    rw [hNew]
    exact hShape.swap rest'
  constructor
  · intro h
    have hAlone := hSwap rest [] h
    rwa [List.append_nil] at hAlone
  · intro h
    refine hSwap [] rest ?_
    rwa [List.append_nil]

end SqlTemplate.Placeholder
