import SqlTemplate.Dialect.Preset
import SqlTemplate.Proofs.Coverage
import SqlTemplate.Proofs.Placeholders

/-!
# After a malformed placeholder

A malformed placeholder is rejected up to a place from which reading can go on.  Where that
is, is said here without the searches:

* `Text.ClosesAt`: the end of the first close after the place of the failure, or the end of
  the text.
* `Brackets.BalancesAt`: where the depth first returns to nothing, if the text is cut into
  marks and single characters from left to right (`Brackets.pieces`) and the openers and
  closers among them are counted (`Brackets.depth`).

`Text.closesAt_of_indexOf?` and `Brackets.balancesAt_of_close?` say that the two searches find
these places.  A search that goes on from the expression finds the same as one from the start,
because whitespace holds no braces.  `Placeholder.Recovery` says what is rejected and why, and
the main statement is `Placeholder.scan_recovers`.
-/

namespace SqlTemplate

/-! ### The first close -/

namespace Text

/-- Whitespace and nothing else. -/
def AllSpace (text : List Char) : Prop := ∀ c ∈ text, isSpace c = true

/-- The text does not start with whitespace. -/
def StartsPlain (text : List Char) : Prop := ∀ c, text.head? = some c → isSpace c = false

/-- The first occurrence of the pattern in `rest`, which stands after `before`, ends at the
offset; if there is none, the text ends there. -/
def ClosesAt (pattern before rest : List Char) (offset : Nat) : Prop :=
  (∃ skipped after, rest = skipped ++ (pattern ++ after) ∧
      (∀ skipped' after', rest = skipped' ++ (pattern ++ after') →
        skipped.length ≤ skipped'.length) ∧
      offset = byteLength (before ++ (skipped ++ pattern))) ∨
    (¬pattern <:+: rest ∧ offset = byteLength (before ++ rest))

theorem infix_cons_of_append {pattern skipped after : List Char} {c : Char} {rest : List Char}
    (h : c :: rest = skipped ++ (pattern ++ after)) :
    pattern <+: c :: rest ∨ ∃ skipped', skipped = c :: skipped' ∧
      rest = skipped' ++ (pattern ++ after) := by
  cases skipped with
  | nil => exact Or.inl ⟨after, h.symm⟩
  | cons a skipped' =>
    rw [List.cons_append, List.cons.injEq] at h
    obtain ⟨rfl, hRest⟩ := h
    exact Or.inr ⟨skipped', rfl, hRest⟩

/-- What the search finds is an occurrence, and none starts before it. -/
theorem occurs_of_indexOf? {pattern text : List Char} {n : Nat}
    (h : indexOf? pattern text = some n) :
    pattern <+: text.drop n ∧
      ∀ skipped after, text = skipped ++ (pattern ++ after) → n ≤ skipped.length := by
  induction text generalizing n with
  | nil =>
    rw [indexOf?] at h
    split at h
    · next hEmpty =>
      cases h
      rw [List.isEmpty_iff.1 hEmpty]
      exact ⟨List.nil_prefix, fun _ _ _ => Nat.zero_le _⟩
    · cases h
  | cons c rest ih =>
    rw [indexOf?] at h
    split at h
    · next hHere =>
      cases h
      exact ⟨List.isPrefixOf_iff_prefix.1 hHere, fun _ _ _ => Nat.zero_le _⟩
    · next hHere =>
      obtain ⟨m, hm, rfl⟩ := Option.map_eq_some_iff.1 h
      obtain ⟨hOccurs, hFirst⟩ := ih hm
      refine ⟨hOccurs, ?_⟩
      intro skipped after hText
      rcases infix_cons_of_append hText with hPrefix | ⟨skipped', rfl, hRest⟩
      · exact absurd (List.isPrefixOf_iff_prefix.2 hPrefix) hHere
      · exact Nat.succ_le_succ (hFirst skipped' after hRest)

theorem not_infix_of_indexOf? {pattern text : List Char} (h : indexOf? pattern text = none) :
    ¬pattern <:+: text := by
  induction text with
  | nil =>
    rintro ⟨skipped, after, hText⟩
    rw [indexOf?] at h
    split at h
    · cases h
    · next hEmpty =>
      have hNil : pattern = [] := by
        rw [List.append_assoc] at hText
        exact (List.append_eq_nil_iff.1 (List.append_eq_nil_iff.1 hText).2).1
      exact hEmpty (List.isEmpty_iff.2 hNil)
  | cons c rest ih =>
    rintro ⟨skipped, after, hText⟩
    rw [indexOf?] at h
    split at h
    · cases h
    · next hHere =>
      rw [List.append_assoc] at hText
      rcases infix_cons_of_append hText.symm with hPrefix | ⟨skipped', -, hRest⟩
      · exact hHere (List.isPrefixOf_iff_prefix.2 hPrefix)
      · refine ih (Option.map_eq_none_iff.1 h) ⟨skipped', after, ?_⟩
        rw [List.append_assoc, hRest]

/-- **The search for a pattern finds the place where its first occurrence ends.** -/
theorem closesAt_of_indexOf? (pattern before rest : List Char) :
    ClosesAt pattern before rest
      (match indexOf? pattern rest with
        | some n => byteLength (before ++ rest.take (n + pattern.length))
        | none => byteLength (before ++ rest)) := by
  cases h : indexOf? pattern rest with
  | none => exact Or.inr ⟨not_infix_of_indexOf? h, rfl⟩
  | some n =>
    obtain ⟨⟨after, hAfter⟩, hFirst⟩ := occurs_of_indexOf? h
    have hLength : (rest.take n).length = n := by
      have := indexOf?_le h
      rw [List.length_take]
      omega
    have hText : rest = rest.take n ++ (pattern ++ after) := by
      rw [hAfter, List.take_append_drop]
    have hTake : rest.take (n + pattern.length) = rest.take n ++ pattern := by
      rw [List.take_add, ← hAfter, List.take_left]
    refine Or.inl ⟨rest.take n, after, hText, ?_, ?_⟩
    · intro skipped' after' hOther
      rw [hLength]
      exact hFirst skipped' after' hOther
    · show byteLength (before ++ rest.take (n + pattern.length)) = _
      rw [hTake]

end Text

/-! ### Counting the depth -/

namespace Brackets

variable (b : Brackets)

/-- The text cut from left to right: marks as wholes, and all else character by character. -/
def pieces : List Char → List (List Char)
  | c :: e :: rest =>
    if (c, e) = b.opener ∨ (c, e) = b.closer then [c, e] :: pieces rest
    else [c] :: pieces (e :: rest)
  | [c] => [[c]]
  | [] => []

/-- What a piece adds to the depth. -/
def weight (piece : List Char) : Int :=
  if piece = [b.opener.1, b.opener.2] then 1
  else if piece = [b.closer.1, b.closer.2] then -1
  else 0

/-- The number of openers less the number of closers. -/
def depth : List (List Char) → Int
  | [] => 0
  | piece :: read => b.weight piece + depth read

/-- The depth is nothing after these pieces, for the first time since the start. -/
structure FirstReturn (read : List (List Char)) : Prop where
  ne_nil : read ≠ []
  depth_eq : b.depth read = 0
  first : ∀ shorter, shorter <+: read → shorter ≠ [] → b.depth shorter = 0 → shorter = read

/-- The depth first returns to nothing at the offset; if it never does, the text ends there. -/
def BalancesAt (text : List Char) (offset : Nat) : Prop :=
  (∃ read, read <+: b.pieces text ∧ b.FirstReturn read ∧
      offset = Text.byteLength read.flatten) ∨
    ((∀ read, read <+: b.pieces text → read ≠ [] → b.depth read ≠ 0) ∧
      offset = Text.byteLength text)

variable {b}

@[simp] theorem depth_nil : b.depth [] = 0 := rfl

@[simp] theorem depth_cons (piece : List Char) (read : List (List Char)) :
    b.depth (piece :: read) = b.weight piece + b.depth read := rfl

theorem weight_of_opener {c e : Char} (h : (c, e) = b.opener) : b.weight [c, e] = 1 := by
  rw [weight, ← h, if_pos rfl]

theorem weight_of_closer {c e : Char} (hOpen : (c, e) ≠ b.opener) (hClose : (c, e) = b.closer) :
    b.weight [c, e] = -1 := by
  have hNot : [c, e] ≠ [b.opener.1, b.opener.2] := by
    intro hSame
    simp only [List.cons.injEq, and_true] at hSame
    exact hOpen (Prod.ext hSame.1 hSame.2)
  rw [weight, if_neg hNot, ← hClose, if_pos rfl]

theorem weight_singleton (c : Char) : b.weight [c] = 0 := by simp [weight]

theorem pieces_of_mark {c e : Char} (h : (c, e) = b.opener ∨ (c, e) = b.closer)
    (rest : List Char) : b.pieces (c :: e :: rest) = [c, e] :: b.pieces rest := by
  rw [pieces, if_pos h]

theorem pieces_of_plain {c e : Char} (hOpen : (c, e) ≠ b.opener) (hClose : (c, e) ≠ b.closer)
    (rest : List Char) : b.pieces (c :: e :: rest) = [c] :: b.pieces (e :: rest) := by
  rw [pieces, if_neg (not_or.2 ⟨hOpen, hClose⟩)]

theorem flatten_pieces (text : List Char) : (b.pieces text).flatten = text := by
  fun_induction b.pieces text with
  | case1 c e rest h ih => rw [List.flatten_cons, ih, List.cons_append, List.singleton_append]
  | case2 c e rest h ih => rw [List.flatten_cons, ih, List.singleton_append]
  | case3 c => rfl
  | case4 => rfl

variable (b) in
/-- Read from the level, the depth is nothing for the first time after pieces with `n`
characters. -/
def Reaches (level : Int) (all : List (List Char)) (n : Nat) : Prop :=
  ∃ read, read <+: all ∧ read.flatten.length = n ∧ level + b.depth read = 0 ∧
    ∀ shorter, shorter <+: read → level + b.depth shorter = 0 → shorter = read

variable (b) in
/-- Read from the level, the depth is never nothing. -/
def Avoids (level : Int) (all : List (List Char)) : Prop :=
  ∀ read, read <+: all → level + b.depth read ≠ 0

section Step

variable {level : Int} {piece : List Char} {all : List (List Char)} (hLevel : level ≠ 0)

include hLevel

/-- One more piece in front. -/
theorem Reaches.cons {n : Nat} (h : b.Reaches (level + b.weight piece) all n) :
    b.Reaches level (piece :: all) (n + piece.length) := by
  obtain ⟨read, hPrefix, rfl, hDepth, hFirst⟩ := h
  refine ⟨piece :: read, List.cons_prefix_cons.2 ⟨rfl, hPrefix⟩, ?_, ?_, ?_⟩
  · rw [List.flatten_cons, List.length_append, Nat.add_comm]
  · rw [depth_cons]
    omega
  · intro shorter hShorter hZero
    rcases List.prefix_cons_iff.1 hShorter with rfl | ⟨more, rfl, hMore⟩
    · rw [depth_nil] at hZero
      omega
    · rw [depth_cons] at hZero
      rw [hFirst more hMore (by omega)]

theorem Avoids.cons (h : b.Avoids (level + b.weight piece) all) :
    b.Avoids level (piece :: all) := by
  intro read hPrefix
  rcases List.prefix_cons_iff.1 hPrefix with rfl | ⟨more, rfl, hMore⟩
  · rw [depth_nil]
    omega
  · have := h more hMore
    rw [depth_cons]
    omega

end Step

/-- **A closer that is found** is where the depth is first nothing.  The search carries the
level less one as its depth. -/
theorem reaches_of_close? {k : Nat} {text : List Char} {n : Nat} (h : b.close? k text = some n) :
    b.Reaches (k + 1) (b.pieces text) n := by
  fun_induction Brackets.close? b k text generalizing n with
  | case1 k c e rest hOpen ih =>
    obtain ⟨m, hm, rfl⟩ := Option.map_eq_some_iff.1 h
    rw [pieces_of_mark (Or.inl hOpen)]
    refine Reaches.cons (by omega) ?_
    rw [weight_of_opener hOpen]
    exact ih hm
  | case2 c e rest hOpen hClose =>
    cases h
    rw [pieces_of_mark (Or.inr hClose)]
    refine Reaches.cons (n := 0) (by omega) ?_
    rw [weight_of_closer hOpen hClose]
    exact ⟨[], List.nil_prefix, rfl, rfl, fun shorter hShorter _ => List.prefix_nil.1 hShorter⟩
  | case3 c e rest hOpen hClose outer ih =>
    obtain ⟨m, hm, rfl⟩ := Option.map_eq_some_iff.1 h
    rw [pieces_of_mark (Or.inr hClose)]
    refine Reaches.cons (by omega) ?_
    rw [weight_of_closer hOpen hClose,
      show ((outer + 1 : Nat) : Int) + 1 + -1 = (outer : Int) + 1 by omega]
    exact ih hm
  | case4 k c e rest hOpen hClose ih =>
    obtain ⟨m, hm, rfl⟩ := Option.map_eq_some_iff.1 h
    rw [pieces_of_plain hOpen hClose]
    refine Reaches.cons (by omega) ?_
    rw [weight_singleton, Int.add_zero]
    exact ih hm
  | case5 => cases h

/-- **Where no closer is found** the depth is never nothing. -/
theorem avoids_of_close? {k : Nat} {text : List Char} (h : b.close? k text = none) :
    b.Avoids (k + 1) (b.pieces text) := by
  fun_induction Brackets.close? b k text with
  | case1 k c e rest hOpen ih =>
    rw [pieces_of_mark (Or.inl hOpen)]
    refine Avoids.cons (by omega) ?_
    rw [weight_of_opener hOpen]
    exact ih (Option.map_eq_none_iff.1 h)
  | case2 c e rest hOpen hClose => cases h
  | case3 c e rest hOpen hClose outer ih =>
    rw [pieces_of_mark (Or.inr hClose)]
    refine Avoids.cons (by omega) ?_
    rw [weight_of_closer hOpen hClose,
      show ((outer + 1 : Nat) : Int) + 1 + -1 = (outer : Int) + 1 by omega]
    exact ih (Option.map_eq_none_iff.1 h)
  | case4 k c e rest hOpen hClose ih =>
    rw [pieces_of_plain hOpen hClose]
    refine Avoids.cons (by omega) ?_
    rw [weight_singleton, Int.add_zero]
    exact ih (Option.map_eq_none_iff.1 h)
  | case5 text k hShort =>
    -- what is left has no room for a mark
    intro read hPrefix
    have hZero : b.depth read = 0 := by
      rcases text with _ | ⟨c, _ | ⟨e, rest⟩⟩
      · rw [List.prefix_nil.1 hPrefix, depth_nil]
      · rcases List.prefix_cons_iff.1 hPrefix with rfl | ⟨more, rfl, hMore⟩
        · exact depth_nil
        · rw [List.prefix_nil.1 hMore, depth_cons, weight_singleton, depth_nil]
          rfl
      · exact absurd rfl (hShort c e rest)
    omega

/-- **The search for the closer finds where the depth returns to nothing**, counted from the
opener before it. -/
theorem balancesAt_of_close? {c e : Char} (hOpen : (c, e) = b.opener) (body : List Char) :
    b.BalancesAt (c :: e :: body)
      (match b.close? 0 body with
        | some n => Text.byteLength (c :: e :: body.take n)
        | none => Text.byteLength (c :: e :: body)) := by
  have hPieces := pieces_of_mark (Or.inl hOpen) body
  have hWeight := weight_of_opener hOpen
  cases h : b.close? 0 body with
  | none =>
    refine Or.inr ⟨?_, rfl⟩
    intro read hPrefix hRead
    rw [hPieces] at hPrefix
    rcases List.prefix_cons_iff.1 hPrefix with rfl | ⟨more, rfl, hMore⟩
    · exact absurd rfl hRead
    · rw [depth_cons, hWeight]
      exact avoids_of_close? h more hMore
  | some n =>
    obtain ⟨read, hPrefix, hLength, hDepth, hFirst⟩ := reaches_of_close? h
    refine Or.inl ⟨[c, e] :: read, ?_, ⟨List.cons_ne_nil _ _, ?_, ?_⟩, ?_⟩
    · rw [hPieces]
      exact List.cons_prefix_cons.2 ⟨rfl, hPrefix⟩
    · rw [depth_cons, hWeight]
      exact hDepth
    · intro shorter hShorter hne hZero
      rcases List.prefix_cons_iff.1 hShorter with rfl | ⟨more, rfl, hMore⟩
      · exact absurd rfl hne
      · rw [depth_cons, hWeight] at hZero
        rw [hFirst more hMore hZero]
    · have hBody : read.flatten = body.take n := by
        obtain ⟨rest, hRest⟩ := hPrefix
        have hText := congrArg List.flatten hRest
        rw [flatten_pieces, List.flatten_append] at hText
        rw [← hText, ← hLength, List.take_left]
      rw [List.flatten_cons, hBody, List.cons_append, List.singleton_append]

/-- Text without the first character of a mark is passed over. -/
theorem close?_append {left : List Char} (h : ∀ c ∈ left, c ≠ b.opener.1 ∧ c ≠ b.closer.1)
    (k : Nat) (rest : List Char) :
    b.close? k (left ++ rest) = (b.close? k rest).map (· + left.length) := by
  induction left with
  | nil => simp
  | cons c left ih =>
    have hc := h c List.mem_cons_self
    have hRest := ih fun a ha => h a (List.mem_cons_of_mem c ha)
    rw [List.cons_append]
    cases hText : left ++ rest with
    | nil =>
      rw [(List.append_eq_nil_iff.1 hText).2]
      simp [close?]
    | cons e more =>
      have hOpen : (c, e) ≠ b.opener := fun hSame => hc.1 (congrArg Prod.fst hSame)
      have hClose : (c, e) ≠ b.closer := fun hSame => hc.2 (congrArg Prod.fst hSame)
      rw [close?_cons_cons, if_neg hOpen, if_neg hClose, ← hText, hRest, Option.map_map]
      rfl

end Brackets

/-! ### What is rejected -/

namespace Placeholder

/-- How much of a malformed placeholder is rejected, `n` bytes of it, and for which fault.
Its opener stands before `body`. -/
structure Recovery (d : Dialect) (body : List Char) (fault : Fault) (n : Nat) : Prop where
  /-- Another opener stands where the expression should. -/
  nested : ∀ left rest, body = left ++ '{' :: '{' :: rest → Text.AllSpace left →
    fault = .nestedPlaceholder ∧ Brackets.placeholder.BalancesAt ('{' :: '{' :: body) n
  /-- There is no expression, or it is a string that is never closed. -/
  noExpression : ∀ left rest found, body = left ++ rest → Text.AllSpace left →
    Text.StartsPlain rest → startsOpen rest = false → expression d rest = .error found →
    fault = found ∧ Text.ClosesAt ['}', '}'] ('{' :: '{' :: left) rest n
  /-- Something else than a close stands after the expression. -/
  noClose : ∀ left inner right rest, body = left ++ (inner ++ (right ++ rest)) →
    Text.AllSpace left → Text.AllSpace right → Text.StartsPlain rest →
    expression d (inner ++ (right ++ rest)) = .ok inner.length →
    (fault = .expectedPlaceholderClose ∨ fault = .unterminatedPlaceholder) ∧
      Text.ClosesAt ['}', '}'] ('{' :: '{' :: (left ++ (inner ++ right))) rest n
  unterminated : fault = .unterminatedPlaceholder ↔
    ∃ left inner after, body = left ++ (inner ++ after) ∧ Text.AllSpace left ∧
      expression d (inner ++ after) = .ok inner.length ∧ ¬['}', '}'] <:+: after
  le : n ≤ Text.byteLength ('{' :: '{' :: body)
  two_lt : body ≠ [] → 2 < n
  boundary : Text.IsBoundary ('{' :: '{' :: body) n

variable {d : Dialect}

theorem not_brace_of_isSpace {c : Char} (h : Text.isSpace c = true) : c ≠ '{' ∧ c ≠ '}' := by
  constructor <;>
    · rintro rfl
      revert h
      decide

/-- Whitespace before a text adds no close to it. -/
theorem infix_of_allSpace {right rest : List Char} (hRight : Text.AllSpace right)
    (h : ['}', '}'] <:+: right ++ rest) : ['}', '}'] <:+: rest := by
  induction right with
  | nil => exact h
  | cons c right ih =>
    refine ih (fun a ha => hRight a (List.mem_cons_of_mem c ha)) ?_
    rw [List.cons_append, List.infix_cons_iff] at h
    refine h.resolve_left fun hPrefix => ?_
    have hHead := (List.cons_prefix_cons.1 hPrefix).1
    exact (not_brace_of_isSpace (hRight c List.mem_cons_self)).2 hHead.symm

/-! ### The three ways to fail -/

/-- **What stands after an opener and whitespace**: another opener, no expression, or an
expression with whitespace after it. -/
theorem body_cases (d : Dialect) (body : List Char) :
    (∃ left rest, body = left ++ '{' :: '{' :: rest ∧ Text.AllSpace left) ∨
      (∃ left rest found, body = left ++ rest ∧ Text.AllSpace left ∧ Text.StartsPlain rest ∧
        startsOpen rest = false ∧ expression d rest = .error found) ∨
      (∃ left inner right rest, body = left ++ (inner ++ (right ++ rest)) ∧
        Text.AllSpace left ∧ Text.AllSpace right ∧ Text.StartsPlain rest ∧
        expression d (inner ++ (right ++ rest)) = .ok inner.length) := by
  obtain ⟨left, rest, rfl, hLeft, hRest⟩ := exists_space_split body
  cases hOpen : startsOpen rest with
  | true =>
    obtain ⟨more, rfl⟩ := startsOpen_iff.1 hOpen
    exact Or.inl ⟨left, more, rfl, hLeft⟩
  | false =>
    cases hExpression : expression d rest with
    | error found =>
      exact Or.inr (Or.inl ⟨left, rest, found, rfl, hLeft, hRest, hOpen, hExpression⟩)
    | ok k =>
      obtain ⟨right, tail, hTail, hRight, hPlain⟩ := exists_space_split (rest.drop k)
      have hText : rest.take k ++ (right ++ tail) = rest := by
        rw [← hTail, List.take_append_drop]
      have hLength : (rest.take k).length = k := by
        rw [List.length_take, Nat.min_eq_left (expression_le hExpression)]
      refine Or.inr (Or.inr ⟨left, rest.take k, right, tail, ?_, hLeft, hRight, hPlain, ?_⟩)
      · rw [hText]
      · rw [hText, hLength, hExpression]

theorem scan_of_nested {left : List Char} (hLeft : Text.AllSpace left) (rest : List Char) :
    scan d ('{' :: '{' :: (left ++ '{' :: '{' :: rest)) =
      recoverNested ('{' :: '{' :: (left ++ '{' :: '{' :: rest)) (left.length + 2) := by
  have hPlain : Text.StartsPlain ('{' :: '{' :: rest) := by
    rintro c ⟨⟩
    decide
  obtain ⟨hStart, hDrop⟩ := expressionStart_append hLeft hPlain
  rw [scan_eq, hStart, hDrop, if_pos (startsOpen_iff.2 ⟨rest, rfl⟩)]

theorem scan_of_error {left rest : List Char} {found : Fault} (hLeft : Text.AllSpace left)
    (hRest : Text.StartsPlain rest) (hOpen : startsOpen rest = false)
    (h : expression d rest = .error found) :
    scan d ('{' :: '{' :: (left ++ rest)) =
      recover ('{' :: '{' :: (left ++ rest)) (left.length + 2) found found := by
  obtain ⟨hStart, hDrop⟩ := expressionStart_append hLeft hRest
  rw [scan_eq, hStart, hDrop, hOpen, if_neg Bool.false_ne_true, h]

theorem scan_of_ok {left inner right rest : List Char} (hLeft : Text.AllSpace left)
    (hRight : Text.AllSpace right) (hRest : Text.StartsPlain rest)
    (h : expression d (inner ++ (right ++ rest)) = .ok inner.length) :
    scan d ('{' :: '{' :: (left ++ (inner ++ (right ++ rest)))) =
      if startsClose rest then
        .accept .placeholder (('{' :: '{' :: (left ++ (inner ++ right))).length + 2)
      else
        recover ('{' :: '{' :: (left ++ (inner ++ (right ++ rest))))
          ('{' :: '{' :: (left ++ (inner ++ right))).length
          .expectedPlaceholderClose .unterminatedPlaceholder := by
  obtain ⟨a, more, hHead, hSpace, hBrace⟩ := expression_head h
  have hPlain : Text.StartsPlain (inner ++ (right ++ rest)) := by
    rw [hHead]
    rintro c ⟨⟩
    exact hSpace
  have hOpen : startsOpen (inner ++ (right ++ rest)) = false := by
    rw [← Bool.not_eq_true, startsOpen_iff, hHead]
    rintro ⟨_, ⟨⟩⟩
    exact hBrace rfl
  obtain ⟨hStart, hDrop⟩ := expressionStart_append hLeft hPlain
  have hAfter : ('{' :: '{' :: (left ++ (inner ++ (right ++ rest)))).drop
      (left.length + 2 + inner.length) = right ++ rest := by
    rw [← List.drop_drop, hDrop, List.drop_left]
  have hClose : closeStart ('{' :: '{' :: (left ++ (inner ++ (right ++ rest)))) inner.length =
      ('{' :: '{' :: (left ++ (inner ++ right))).length := by
    rw [closeStart, hStart, hAfter, spaceRun_append hRight hRest]
    simp only [List.length_cons, List.length_append]
    omega
  have hTail : ('{' :: '{' :: (left ++ (inner ++ (right ++ rest)))).drop
      ('{' :: '{' :: (left ++ (inner ++ right))).length = rest := by
    have hText : '{' :: '{' :: (left ++ (inner ++ (right ++ rest))) =
        '{' :: '{' :: (left ++ (inner ++ right)) ++ rest := by
      simp
    rw [hText, List.drop_left]
  rw [scan_eq, hStart, hDrop, hOpen, if_neg Bool.false_ne_true, h]
  simp only [hClose, hTail]

/-! ### Where reading goes on -/

theorem recover_closesAt (before rest : List Char) (fault unclosed : Fault) :
    Text.ClosesAt ['}', '}'] before rest
      ((recover (before ++ rest) before.length fault unclosed).byteLength (before ++ rest)) := by
  have hSearch := Text.closesAt_of_indexOf? ['}', '}'] before rest
  rw [recover, List.drop_left]
  cases h : Text.indexOf? ['}', '}'] rest with
  | none =>
    rw [h] at hSearch
    simpa only [Match.byteLength, Match.reject_length, List.take_length] using hSearch
  | some n =>
    rw [h] at hSearch
    show Text.ClosesAt _ _ _ (Text.byteLength ((before ++ rest).take (before.length + n + 2)))
    rw [Nat.add_assoc, List.take_length_add_append]
    exact hSearch

/-- Which of the two faults is given depends on whether there is a close. -/
theorem fault_of_recover (before : List Char) {rest : List Char} {found unclosed fault : Fault}
    (h : (recover (before ++ rest) before.length found unclosed).verdict = .reject fault) :
    (['}', '}'] <:+: rest ∧ fault = found) ∨ (¬['}', '}'] <:+: rest ∧ fault = unclosed) := by
  rw [recover, List.drop_left] at h
  cases hSearch : Text.indexOf? ['}', '}'] rest with
  | none =>
    rw [hSearch] at h
    exact Or.inr ⟨Text.not_infix_of_indexOf? hSearch, (Verdict.reject.inj h).symm⟩
  | some n =>
    rw [hSearch] at h
    have hOccurs := (Text.occurs_of_indexOf? hSearch).1
    exact Or.inl ⟨hOccurs.isInfix.trans (List.drop_suffix n rest).isInfix,
      (Verdict.reject.inj h).symm⟩

theorem recoverNested_balancesAt {left : List Char} (hLeft : Text.AllSpace left)
    (rest : List Char) :
    Brackets.placeholder.BalancesAt ('{' :: '{' :: (left ++ rest))
      ((recoverNested ('{' :: '{' :: (left ++ rest)) (left.length + 2)).byteLength
        ('{' :: '{' :: (left ++ rest))) := by
  have hSearch := Brackets.balancesAt_of_close? (b := Brackets.placeholder) (c := '{') (e := '{')
    rfl (left ++ rest)
  rw [Brackets.close?_append fun c hc => not_brace_of_isSpace (hLeft c hc)] at hSearch
  rw [recoverNested, List.drop_succ_cons, List.drop_succ_cons, List.drop_left]
  cases h : Brackets.placeholder.close? 0 rest with
  | none =>
    rw [h, Option.map_none] at hSearch
    simpa only [Match.byteLength, Match.reject_length, List.take_length] using hSearch
  | some n =>
    rw [h, Option.map_some] at hSearch
    have hLength : left.length + 2 + n = n + left.length + 1 + 1 := by omega
    simpa only [Match.byteLength, Match.reject_length, hLength, List.take_succ_cons] using hSearch

theorem two_lt_recover {text : List Char} (hText : 2 < text.length) {start : Nat}
    (hStart : 2 ≤ start) (fault unclosed : Fault) :
    2 < (recover text start fault unclosed).length := by
  unfold recover
  split
  · rw [Match.reject_length]
    omega
  · exact hText

theorem two_lt_recoverNested {text : List Char} (hText : 2 < text.length) {start : Nat}
    (hStart : 2 ≤ start) : 2 < (recoverNested text start).length := by
  unfold recoverNested
  split
  · next n hn =>
    have := Brackets.two_le_of_close? hn
    rw [Match.reject_length]
    omega
  · exact hText

/-- More than the opener is taken, if there is more. -/
theorem two_lt_scan (d : Dialect) {body : List Char} (h : body ≠ []) :
    2 < (scan d ('{' :: '{' :: body)).length := by
  have hText : 2 < ('{' :: '{' :: body).length := by
    have := List.length_pos_iff.2 h
    simp only [List.length_cons]
    omega
  rcases body_cases d body with ⟨left, rest, rfl, hLeft⟩ |
      ⟨left, rest, found, rfl, hLeft, hRest, hOpen, hError⟩ |
      ⟨left, inner, right, rest, rfl, hLeft, hRight, hRest, hOk⟩
  · rw [scan_of_nested hLeft]
    exact two_lt_recoverNested hText (by omega)
  · rw [scan_of_error hLeft hRest hOpen hError]
    exact two_lt_recover hText (by omega) _ _
  · rw [scan_of_ok hLeft hRight hRest hOk]
    split
    · rw [Match.accept_length, List.length_cons, List.length_cons]
      omega
    · refine two_lt_recover hText ?_ _ _
      rw [List.length_cons, List.length_cons]
      omega

/-- If the expression is missing or stays open, that is the fault. -/
theorem fault_of_error {left rest : List Char} {found fault : Fault} (hLeft : Text.AllSpace left)
    (hRest : Text.StartsPlain rest) (hOpen : startsOpen rest = false)
    (hError : expression d rest = .error found)
    (h : (scan d ('{' :: '{' :: (left ++ rest))).verdict = .reject fault) : fault = found := by
  rw [scan_of_error hLeft hRest hOpen hError] at h
  rcases fault_of_recover ('{' :: '{' :: left) h with ⟨-, hFault⟩ | ⟨-, hFault⟩
  · exact hFault
  · exact hFault

/-- After an expression the fault tells whether there is a close. -/
theorem fault_of_ok {left inner right rest : List Char} {fault : Fault}
    (hLeft : Text.AllSpace left) (hRight : Text.AllSpace right) (hRest : Text.StartsPlain rest)
    (hOk : expression d (inner ++ (right ++ rest)) = .ok inner.length)
    (h : (scan d ('{' :: '{' :: (left ++ (inner ++ (right ++ rest))))).verdict = .reject fault) :
    startsClose rest = false ∧
      ((['}', '}'] <:+: rest ∧ fault = .expectedPlaceholderClose) ∨
        (¬['}', '}'] <:+: rest ∧ fault = .unterminatedPlaceholder)) := by
  rw [scan_of_ok hLeft hRight hRest hOk] at h
  split at h
  · cases h
  · next hClose =>
    have hText : '{' :: '{' :: (left ++ (inner ++ (right ++ rest))) =
        '{' :: '{' :: (left ++ (inner ++ right)) ++ rest := by
      simp
    rw [hText] at h
    exact ⟨Bool.not_eq_true _ ▸ hClose, fault_of_recover _ h⟩

/-- **A placeholder is unterminated** exactly if it has an expression and there is no close
after that. -/
theorem unterminated_iff {body : List Char} {fault : Fault}
    (h : (scan d ('{' :: '{' :: body)).verdict = .reject fault) :
    fault = .unterminatedPlaceholder ↔
      ∃ left inner after, body = left ++ (inner ++ after) ∧ Text.AllSpace left ∧
        expression d (inner ++ after) = .ok inner.length ∧ ¬['}', '}'] <:+: after := by
  constructor
  · rintro rfl
    rcases body_cases d body with ⟨left, rest, rfl, hLeft⟩ |
        ⟨left, rest, found, rfl, hLeft, hRest, hOpen, hError⟩ |
        ⟨left, inner, right, rest, rfl, hLeft, hRight, hRest, hOk⟩
    · rw [scan_of_nested hLeft, recoverNested_verdict] at h
      cases h
    · have hFound := fault_of_error hLeft hRest hOpen hError h
      rcases expression_fault hError with hOther | hOther <;>
        · rw [← hFound] at hOther
          cases hOther
    · refine ⟨left, inner, right ++ rest, rfl, hLeft, hOk, fun hInfix => ?_⟩
      rcases (fault_of_ok hLeft hRight hRest hOk h).2 with ⟨-, hFault⟩ | ⟨hNone, -⟩
      · cases hFault
      · exact hNone (infix_of_allSpace hRight hInfix)
  · rintro ⟨left, inner, after, rfl, hLeft, hOk, hNone⟩
    obtain ⟨right, rest, rfl, hRight, hRest⟩ := exists_space_split after
    rcases (fault_of_ok hLeft hRight hRest hOk h).2 with ⟨hInfix, -⟩ | ⟨-, hFault⟩
    · exact absurd (hInfix.trans (List.suffix_append right rest).isInfix) hNone
    · exact hFault

/-- **What becomes of a malformed placeholder.**  It is rejected up to the close that balances
its opener if another opener stands where its expression should, and otherwise up to the first
close after the place where it fails; without such a close all of the text is rejected. -/
theorem scan_recovers (d : Dialect) (body : List Char) (fault : Fault)
    (h : (scan d ('{' :: '{' :: body)).verdict = .reject fault) :
    Recovery d body fault ((scan d ('{' :: '{' :: body)).byteLength ('{' :: '{' :: body)) where
  nested := by
    rintro left rest rfl hLeft
    rw [scan_of_nested hLeft] at h ⊢
    rw [recoverNested_verdict] at h
    cases h
    exact ⟨rfl, recoverNested_balancesAt hLeft _⟩
  noExpression := by
    rintro left rest found rfl hLeft hRest hOpen hError
    refine ⟨fault_of_error hLeft hRest hOpen hError h, ?_⟩
    rw [scan_of_error hLeft hRest hOpen hError]
    exact recover_closesAt ('{' :: '{' :: left) rest found found
  noClose := by
    rintro left inner right rest rfl hLeft hRight hRest hOk
    obtain ⟨hClose, hFault⟩ := fault_of_ok hLeft hRight hRest hOk h
    refine ⟨hFault.imp And.right And.right, ?_⟩
    have hText : '{' :: '{' :: (left ++ (inner ++ (right ++ rest))) =
        '{' :: '{' :: (left ++ (inner ++ right)) ++ rest := by
      simp
    rw [scan_of_ok hLeft hRight hRest hOk, hClose, if_neg Bool.false_ne_true, hText]
    exact recover_closesAt _ _ _ _
  unterminated := unterminated_iff h
  le := by
    have hSplit := congrArg Text.byteLength
      (List.take_append_drop (scan d ('{' :: '{' :: body)).length ('{' :: '{' :: body))
    rw [Text.byteLength_append] at hSplit
    rw [Match.byteLength]
    omega
  two_lt := by
    intro hBody
    obtain ⟨c, rest, rfl⟩ := List.exists_cons_of_ne_nil hBody
    obtain ⟨k, hk⟩ := Nat.exists_eq_add_of_lt (two_lt_scan d (List.cons_ne_nil c rest))
    have hLength : (scan d ('{' :: '{' :: c :: rest)).length = k + 1 + 1 + 1 := by omega
    have hSize := c.utf8Size_pos
    have hOpener : Char.utf8Size '{' = 1 := rfl
    rw [Match.byteLength, hLength, List.take_succ_cons, List.take_succ_cons, List.take_succ_cons]
    simp only [Text.byteLength_cons, hOpener]
    omega
  boundary := by
    have hCut := Text.isBoundary_append
      (('{' :: '{' :: body).take (scan d ('{' :: '{' :: body)).length)
      (('{' :: '{' :: body).drop (scan d ('{' :: '{' :: body)).length)
    rwa [List.take_append_drop] at hCut

/-- The braces after the second closer do not count: the first two of them balance the opener. -/
theorem scan_recovers_nested :
    (scan Preset.standard.rules "\x7b\x7b \x7b\x7b 'x' \x7d\x7d \x7d\x7d\x7d".toList).verdict =
        .reject .nestedPlaceholder ∧
      Recovery Preset.standard.rules " \x7b\x7b 'x' \x7d\x7d \x7d\x7d\x7d".toList
        .nestedPlaceholder 15 := by
  have hVerdict : (scan Preset.standard.rules
      ('{' :: '{' :: " \x7b\x7b 'x' \x7d\x7d \x7d\x7d\x7d".toList)).verdict =
      .reject .nestedPlaceholder := by
    decide +kernel
  have hRecovery := scan_recovers Preset.standard.rules
    " \x7b\x7b 'x' \x7d\x7d \x7d\x7d\x7d".toList .nestedPlaceholder hVerdict
  have hLength : (scan Preset.standard.rules
      ('{' :: '{' :: " \x7b\x7b 'x' \x7d\x7d \x7d\x7d\x7d".toList)).byteLength
      ('{' :: '{' :: " \x7b\x7b 'x' \x7d\x7d \x7d\x7d\x7d".toList) = 15 := by
    decide +kernel
  rw [hLength] at hRecovery
  exact ⟨hVerdict, hRecovery⟩

end Placeholder

end SqlTemplate
