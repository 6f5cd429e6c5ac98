import Mathlib.Data.List.Pairwise
import SqlTemplate.DottedName
import SqlTemplate.Proofs.Dots

/-!
# Dotted names are the maximal runs

A dotted name is a run of tokens in which parts and dots alternate and that cannot be made
longer on either side (`MaximalRun`).  Looking for them goes from left to right and jumps over
each one that it finds, so it must neither miss one nor start within one:

* `MaximalRun.eq_of_overlap`: two maximal runs that share a token are one.
* `Separates`: no two joined parts stand on different sides of an index.  It holds of every
  index that the search comes to (`MaximalRun.separates_stop`, `Separates.succ`).
* `exists_mem_findFrom_iff`: so from there on exactly the maximal runs are found.
* `exists_mem_findFrom_of_link`: two joined parts belong to one name.  In a source every dot
  joins two parts (`link_of_dotAt`).

The main statement is `find_maximalRuns`.
-/

namespace SqlTemplate

namespace DottedName

/-! ### Maximal runs -/

/-- The token with this index can be a part of a name. -/
def PartAt (tokens : List Token) (i : Nat) : Prop :=
  tokens[i]?.any (·.kind.isNamePart) = true

/-- The token with this index is a dot. -/
def DotAt (tokens : List Token) (i : Nat) : Prop := tokens[i]?.any (·.kind = .dot) = true

instance (tokens : List Token) (i : Nat) : Decidable (DotAt tokens i) :=
  inferInstanceAs (Decidable (_ = true))

/-- Parts and dots alternate in the range, from a part to a part with a dot at least, and they
do not go on before the range or after it. -/
structure MaximalRun (tokens : List Token) (r : IndexRange) : Prop where
  three_le : r.start + 3 ≤ r.stop
  odd : (r.stop - r.start) % 2 = 1
  part : ∀ k, r.start + k < r.stop → k % 2 = 0 → PartAt tokens (r.start + k)
  dot : ∀ k, r.start + k < r.stop → k % 2 = 1 → DotAt tokens (r.start + k)
  right : ¬(DotAt tokens r.stop ∧ PartAt tokens (r.stop + 1))
  left : ∀ i, i + 2 = r.start → ¬(PartAt tokens i ∧ DotAt tokens (i + 1))

variable {tokens rest : List Token} {i j : Nat}

theorem partAt_iff : PartAt tokens i ↔ ∃ t, tokens[i]? = some t ∧ t.kind.isNamePart = true := by
  rw [PartAt, Option.any_eq_true]

theorem dotAt_iff : DotAt tokens i ↔ ∃ t, tokens[i]? = some t ∧ t.kind = .dot := by
  rw [DotAt, Option.any_eq_true]
  simp only [decide_eq_true_iff]

theorem partAt_drop : PartAt (tokens.drop i) j ↔ PartAt tokens (i + j) := by
  rw [PartAt, List.getElem?_drop, PartAt]

theorem dotAt_drop : DotAt (tokens.drop i) j ↔ DotAt tokens (i + j) := by
  rw [DotAt, List.getElem?_drop, DotAt]

theorem PartAt.lt_length (h : PartAt tokens i) : i < tokens.length := by
  obtain ⟨t, ht, -⟩ := partAt_iff.1 h
  exact (List.getElem?_eq_some_iff.1 ht).1

theorem PartAt.not_dotAt (h : PartAt tokens i) : ¬DotAt tokens i := by
  intro hDot
  obtain ⟨t, ht, hPart⟩ := partAt_iff.1 h
  obtain ⟨u, hu, hKind⟩ := dotAt_iff.1 hDot
  rw [ht, Option.some.injEq] at hu
  rw [hu, hKind] at hPart
  cases hPart

namespace MaximalRun

variable {r s : IndexRange}

/-- The token with this index is a part exactly if its offset in the run is even. -/
theorem mod_two (h : MaximalRun tokens r) (hStart : r.start ≤ i) (hStop : i < r.stop) :
    PartAt tokens i ↔ (i - r.start) % 2 = 0 := by
  obtain ⟨k, rfl⟩ := Nat.exists_eq_add_of_le hStart
  rw [Nat.add_sub_cancel_left]
  constructor
  · intro hPart
    by_contra hOdd
    exact hPart.not_dotAt (h.dot k hStop (by omega))
  · exact h.part k hStop

theorem start_le (hr : MaximalRun tokens r) (hs : MaximalRun tokens s) (hrStart : r.start ≤ i)
    (hrStop : i < r.stop) (hsStart : s.start ≤ i) (hsStop : i < s.stop) : s.start ≤ r.start := by
  by_contra hLess
  -- both runs agree on which of their tokens are parts, so `s` could begin earlier
  have hParity := (hr.mod_two hrStart hrStop).symm.trans (hs.mod_two hsStart hsStop)
  obtain ⟨k, hk⟩ : ∃ k, s.start = r.start + k + 2 := ⟨s.start - r.start - 2, by omega⟩
  exact hs.left (r.start + k) hk.symm
    ⟨hr.part k (by omega) (by omega), hr.dot (k + 1) (by omega) (by omega)⟩

theorem stop_le (hr : MaximalRun tokens r) (hs : MaximalRun tokens s) (hStart : r.start = s.start) :
    s.stop ≤ r.stop := by
  by_contra hLess
  have hrOdd := hr.odd
  have hsOdd := hs.odd
  have hrLong := hr.three_le
  obtain ⟨k, hk⟩ : ∃ k, r.stop = s.start + k := ⟨r.stop - s.start, by omega⟩
  refine hr.right ⟨?_, ?_⟩
  · rw [hk]
    exact hs.dot k (by omega) (by omega)
  · rw [hk]
    exact hs.part (k + 1) (by omega) (by omega)

/-- **Two maximal runs that share a token are one.** -/
theorem eq_of_overlap (hr : MaximalRun tokens r) (hs : MaximalRun tokens s) (hrStart : r.start ≤ i)
    (hrStop : i < r.stop) (hsStart : s.start ≤ i) (hsStop : i < s.stop) : r = s := by
  have hStart : r.start = s.start := Nat.le_antisymm
    (start_le hs hr hsStart hsStop hrStart hrStop) (start_le hr hs hrStart hrStop hsStart hsStop)
  have hStop : r.stop = s.stop := Nat.le_antisymm (stop_le hs hr hStart.symm) (stop_le hr hs hStart)
  obtain ⟨start, stop⟩ := r
  exact congr (congrArg IndexRange.mk hStart) hStop

end MaximalRun

/-! ### Places between the runs -/

/-- Two parts with a dot between them, the first one with this index. -/
structure Link (tokens : List Token) (i : Nat) : Prop where
  first : PartAt tokens i
  dot : DotAt tokens (i + 1)
  second : PartAt tokens (i + 2)

/-- No two joined parts stand on different sides of the index. -/
def Separates (tokens : List Token) (i : Nat) : Prop := ∀ j, j < i → i ≤ j + 2 → ¬Link tokens j

theorem separates_zero (tokens : List Token) : Separates tokens 0 := by
  intro j hj
  omega

theorem Separates.succ (h : Separates tokens i) (hLink : ¬Link tokens i) :
    Separates tokens (i + 1) := by
  intro j hBefore hAfter
  by_cases hj : j = i
  · rwa [hj]
  · exact h j (by omega) (by omega)

theorem MaximalRun.separates_stop {r : IndexRange} (h : MaximalRun tokens r) :
    Separates tokens r.stop := by
  intro j hBefore hAfter hLink
  have hLong := h.three_le
  have hOdd := h.odd
  -- a link that begins at the last part makes the run longer; at the last dot none begins
  obtain ⟨k, hk⟩ : ∃ k, j = r.start + k := ⟨j - r.start, by omega⟩
  by_cases hLast : j + 1 = r.stop
  · refine h.right ⟨?_, ?_⟩
    · rw [← hLast]
      exact hLink.dot
    · rw [← hLast]
      exact hLink.second
  · refine hLink.first.not_dotAt ?_
    rw [hk]
    exact h.dot k (by omega) (by omega)

/-! ### The search -/

/-- What continues a name: dots at even offsets and parts at odd ones, as long as possible. -/
structure Continues (tokens : List Token) (n : Nat) : Prop where
  even : n % 2 = 0
  dot : ∀ k, k < n → k % 2 = 0 → DotAt tokens k
  part : ∀ k, k < n → k % 2 = 1 → PartAt tokens k
  stop : ¬(DotAt tokens n ∧ PartAt tokens (n + 1))

theorem continues_tailLength (tokens : List Token) : Continues tokens (tailLength tokens) := by
  fun_induction tailLength tokens with
  | case1 dot part rest hBoth ih =>
    refine ⟨by have := ih.even; omega, ?_, ?_, ih.stop⟩
    · intro k hk hEven
      rcases k with _ | _ | k
      · exact decide_eq_true hBoth.1
      · cases hEven
      · exact ih.dot k (by omega) (by omega)
    · intro k hk hOdd
      rcases k with _ | _ | k
      · cases hOdd
      · exact hBoth.2
      · exact ih.part k (by omega) (by omega)
  | case2 dot part rest hBoth =>
    refine ⟨rfl, fun k hk => by omega, fun k hk => by omega, ?_⟩
    rintro ⟨hDot, hPart⟩
    exact hBoth ⟨of_decide_eq_true hDot, hPart⟩
  | case3 tokens hShort =>
    refine ⟨rfl, fun k hk => by omega, fun k hk => by omega, ?_⟩
    rintro ⟨-, hPart⟩
    rcases tokens with _ | ⟨dot, _ | ⟨part, rest⟩⟩
    · exact absurd hPart.lt_length (by simp)
    · exact absurd hPart.lt_length (by simp)
    · exact hShort dot part rest rfl

section Step

variable {t : Token} (hRest : tokens.drop i = t :: rest)

include hRest

theorem drop_succ : tokens.drop (i + 1) = rest := by
  rw [← List.drop_drop, hRest]
  rfl

theorem drop_succ_add (n : Nat) : tokens.drop (i + 1 + n) = rest.drop n := by
  rw [← List.drop_drop, drop_succ hRest]

theorem partAt_add : PartAt tokens (i + j) ↔ PartAt (t :: rest) j := by
  rw [← hRest, partAt_drop]

theorem dotAt_add : DotAt tokens (i + j) ↔ DotAt (t :: rest) j := by
  rw [← hRest, dotAt_drop]

/-- What the search finds is a maximal run. -/
theorem maximalRun_head (hApart : Separates tokens i)
    (hFound : t.kind.isNamePart = true ∧ 0 < tailLength rest) :
    MaximalRun tokens ⟨i, i + 1 + tailLength rest⟩ := by
  have hTail := continues_tailLength rest
  have hEven := hTail.even
  refine ⟨?_, ?_, ?_, ?_, ?_, ?_⟩
  · show i + 3 ≤ i + 1 + tailLength rest
    omega
  · show (i + 1 + tailLength rest - i) % 2 = 1
    omega
  · intro k (hk : i + k < i + 1 + tailLength rest) hPart
    rw [partAt_add hRest]
    cases k with
    | zero => exact hFound.1
    | succ k => exact hTail.part k (by omega) (by omega)
  · intro k (hk : i + k < i + 1 + tailLength rest) hDot
    rw [dotAt_add hRest]
    cases k with
    | zero => cases hDot
    | succ k => exact hTail.dot k (by omega) (by omega)
  · show ¬(DotAt tokens (i + 1 + tailLength rest) ∧ PartAt tokens (i + 1 + tailLength rest + 1))
    rw [Nat.add_assoc, dotAt_add hRest, Nat.add_assoc, partAt_add hRest, Nat.add_comm 1]
    exact hTail.stop
  · rintro j rfl ⟨hPart, hDot⟩
    exact hApart j (by omega) (by omega) ⟨hPart, hDot, (partAt_add hRest (j := 0)).2 hFound.1⟩

/-- Where nothing is found, no two parts are joined. -/
theorem not_link_head (hFound : ¬(t.kind.isNamePart = true ∧ 0 < tailLength rest)) :
    ¬Link tokens i := by
  rintro ⟨hFirst, hDot, hSecond⟩
  have hTail := continues_tailLength rest
  refine hFound ⟨(partAt_add hRest (j := 0)).1 hFirst, ?_⟩
  by_contra hNone
  rw [Nat.eq_zero_of_not_pos hNone] at hTail
  exact hTail.stop ⟨(dotAt_add hRest).1 hDot, (partAt_add hRest).1 hSecond⟩

end Step

/-- **From an index that separates, exactly the maximal runs are found.** -/
theorem exists_mem_findFrom_iff (hRest : tokens.drop i = rest) (hApart : Separates tokens i)
    (r : IndexRange) :
    (∃ n ∈ findFrom i rest, n.tokens = r) ↔ MaximalRun tokens r ∧ i ≤ r.start := by
  fun_induction findFrom i rest with
  | case1 i =>
    constructor
    · rintro ⟨n, hn, -⟩
      cases hn
    · rintro ⟨hRun, hStart⟩
      have hLong := hRun.three_le
      have hLength := (hRun.part 0 (by omega) rfl).lt_length
      have hEnd := List.drop_eq_nil_iff.1 hRest
      omega
  | case2 i t rest tail hFound ih =>
    have hHead : MaximalRun tokens ⟨i, i + 1 + tail⟩ := maximalRun_head hRest hApart hFound
    have hLater := ih (drop_succ_add hRest tail) hHead.separates_stop
    rw [List.exists_mem_cons_iff, hLater]
    constructor
    · rintro (rfl | ⟨hRun, hStart⟩)
      · exact ⟨hHead, Nat.le_refl i⟩
      · exact ⟨hRun, by omega⟩
    · rintro ⟨hRun, hStart⟩
      by_cases hBeyond : i + 1 + tail ≤ r.start
      · exact Or.inr ⟨hRun, hBeyond⟩
      · have hLong := hRun.three_le
        exact Or.inl (hHead.eq_of_overlap hRun hStart (Nat.lt_of_not_le hBeyond) (Nat.le_refl _)
          (by omega))
  | case3 i t rest tail hFound ih =>
    have hNone := not_link_head hRest hFound
    rw [ih (drop_succ hRest) (hApart.succ hNone)]
    refine and_congr_right fun hRun => ?_
    have hLong := hRun.three_le
    have hStart : r.start ≠ i := by
      rintro rfl
      exact hNone ⟨hRun.part 0 (by omega) rfl, hRun.dot 1 (by omega) rfl,
        hRun.part 2 (by omega) rfl⟩
    omega

/-- The names are found from left to right and share no token. -/
theorem pairwise_findFrom (hRest : tokens.drop i = rest) (hApart : Separates tokens i) :
    (findFrom i rest).Pairwise fun n m => n.tokens.stop ≤ m.tokens.start := by
  fun_induction findFrom i rest with
  | case1 => exact List.Pairwise.nil
  | case2 i t rest tail hFound ih =>
    have hHead : MaximalRun tokens ⟨i, i + 1 + tail⟩ := maximalRun_head hRest hApart hFound
    have hLater := drop_succ_add hRest tail
    refine List.pairwise_cons.2 ⟨?_, ih hLater hHead.separates_stop⟩
    intro m hm
    exact ((exists_mem_findFrom_iff hLater hHead.separates_stop m.tokens).1 ⟨m, hm, rfl⟩).2
  | case3 i t rest tail hFound ih =>
    exact ih (drop_succ hRest) (hApart.succ (not_link_head hRest hFound))

/-- **Two joined parts belong to one name.** -/
theorem exists_mem_findFrom_of_link (hRest : tokens.drop i = rest) (hApart : Separates tokens i)
    (hLink : Link tokens j) (hj : i ≤ j) :
    ∃ n ∈ findFrom i rest, n.tokens.start ≤ j ∧ j + 2 < n.tokens.stop := by
  fun_induction findFrom i rest with
  | case1 i =>
    have hLength := hLink.first.lt_length
    have hEnd := List.drop_eq_nil_iff.1 hRest
    omega
  | case2 i t rest tail hFound ih =>
    have hHead : MaximalRun tokens ⟨i, i + 1 + tail⟩ := maximalRun_head hRest hApart hFound
    have hStop := hHead.separates_stop
    rw [List.exists_mem_cons_iff]
    by_cases hBeyond : i + 1 + tail ≤ j
    · exact Or.inr (ih (drop_succ_add hRest tail) hStop hBeyond)
    · refine Or.inl ⟨hj, ?_⟩
      by_contra hThrough
      exact hStop j (Nat.lt_of_not_le hBeyond) (Nat.le_of_not_lt hThrough) hLink
  | case3 i t rest tail hFound ih =>
    have hNone := not_link_head hRest hFound
    have hNext : j ≠ i := by
      rintro rfl
      exact hNone hLink
    exact ih (drop_succ hRest) (hApart.succ hNone) (by omega)

/-! ### Spans and counts -/

/-- The span of a name goes from its first token to its last one. -/
theorem span_of_mem_findFrom {n : DottedName} (hRest : tokens.drop i = rest)
    (h : n ∈ findFrom i rest) :
    ∃ first last, tokens[n.tokens.start]? = some first ∧
      tokens[n.tokens.stop - 1]? = some last ∧ n.span = cover first last := by
  fun_induction findFrom i rest with
  | case1 => cases h
  | case2 i t rest tail hFound ih =>
    rcases List.mem_cons.1 h with rfl | hLater
    · have hEven : tail % 2 = 0 := (continues_tailLength rest).even
      have hPart := (continues_tailLength rest).part (tail - 1) (by omega) (by omega)
      obtain ⟨last, hLast, -⟩ := partAt_iff.1 hPart
      refine ⟨t, last, ?_, ?_, congrArg (cover t) ?_⟩
      · show tokens[i]? = some t
        rw [← Nat.add_zero i, ← List.getElem?_drop, hRest]
        rfl
      · show tokens[i + 1 + tail - 1]? = some last
        rw [Nat.add_sub_assoc (by omega), ← List.getElem?_drop, drop_succ hRest, hLast]
      · rw [List.getLastD_eq_getLast?, List.getLast?_take, if_neg (by omega), hLast]
        rfl
    · exact ih (drop_succ_add hRest tail) hLater
  | case3 i t rest tail hFound ih => exact ih (drop_succ hRest) h

/-- Parts and dots that alternate, `2 * k + 1` of them, have `k + 1` parts. -/
theorem countP_of_alternating {k : Nat} (hPart : ∀ j, j < 2 * k + 1 → j % 2 = 0 → PartAt tokens j)
    (hDot : ∀ j, j < 2 * k + 1 → j % 2 = 1 → DotAt tokens j) :
    (tokens.take (2 * k + 1)).countP (·.kind.isNamePart) = k + 1 := by
  induction k generalizing tokens with
  | zero =>
    obtain ⟨t, ht, hName⟩ := partAt_iff.1 (hPart 0 (by omega) rfl)
    obtain ⟨more, rfl⟩ := List.head?_eq_some_iff.1 (List.head?_eq_getElem?.trans ht)
    simp [hName]
  | succ k ih =>
    rcases tokens with _ | ⟨t, _ | ⟨u, more⟩⟩
    · exact absurd (hPart 0 (by omega) rfl).lt_length (by simp)
    · exact absurd (hPart 2 (by omega) rfl).lt_length (by simp)
    · have hFirst : t.kind.isNamePart = true := hPart 0 (by omega) rfl
      have hSecond : u.kind = .dot := of_decide_eq_true (hDot 1 (by omega) rfl)
      have hMore : (more.take (2 * k + 1)).countP (·.kind.isNamePart) = k + 1 := by
        refine ih ?_ ?_
        · intro j hj hEven
          exact hPart (j + 2) (by omega) (by omega)
        · intro j hj hOdd
          exact hDot (j + 2) (by omega) (by omega)
      have hTake : (t :: u :: more).take (2 * (k + 1) + 1) = t :: u :: more.take (2 * k + 1) := rfl
      rw [hTake, List.countP_cons, List.countP_cons, hMore, hFirst, hSecond]
      rfl

theorem MaximalRun.countP_parts {r : IndexRange} (h : MaximalRun tokens r) :
    ((tokens.drop r.start).take r.length).countP (·.kind.isNamePart) = (r.length + 1) / 2 := by
  have hLong := h.three_le
  have hOdd := h.odd
  obtain ⟨k, hk⟩ : ∃ k, r.length = 2 * k + 1 := ⟨r.length / 2, by rw [IndexRange.length]; omega⟩
  have hStop : r.stop = r.start + (2 * k + 1) := by
    rw [IndexRange.length] at hk
    omega
  rw [hk, countP_of_alternating]
  · omega
  · intro j hj hEven
    exact partAt_drop.2 (h.part j (by omega) hEven)
  · intro j hj hParity
    exact dotAt_drop.2 (h.dot j (by omega) hParity)

/-! ### The names of a list of tokens and of a source -/

theorem exists_mem_find_iff (tokens : List Token) (r : IndexRange) :
    (∃ n ∈ find tokens, n.tokens = r) ↔ MaximalRun tokens r := by
  rw [find, exists_mem_findFrom_iff List.drop_zero (separates_zero tokens)]
  exact and_iff_left (Nat.zero_le _)

theorem pairwise_find (tokens : List Token) :
    (find tokens).Pairwise fun n m => n.tokens.stop ≤ m.tokens.start :=
  pairwise_findFrom List.drop_zero (separates_zero tokens)

/-- Two names that share a token are one. -/
theorem eq_of_mem_find {n m : DottedName} (hn : n ∈ find tokens) (hm : m ∈ find tokens)
    (hnRange : n.tokens.start ≤ i ∧ i < n.tokens.stop)
    (hmRange : m.tokens.start ≤ i ∧ i < m.tokens.stop) : n = m := by
  by_contra hOther
  have hApart : (find tokens).Pairwise fun n m =>
      n.tokens.stop ≤ m.tokens.start ∨ m.tokens.stop ≤ n.tokens.start :=
    (pairwise_find tokens).imp Or.inl
  have hSymm : Std.Symm fun n m : DottedName =>
      n.tokens.stop ≤ m.tokens.start ∨ m.tokens.stop ≤ n.tokens.start :=
    ⟨fun _ _ => Or.symm⟩
  rcases hApart.forall hn hm hOther with h | h <;> omega

/-- **A dot of a source joins two parts.** -/
theorem link_of_dotAt {d : Dialect} {source : List Char} (h : DotAt (d.scan source).tokens i) :
    ∃ j, i = j + 1 ∧ Link (d.scan source).tokens j := by
  obtain ⟨t, ht, hKind⟩ := dotAt_iff.1 h
  obtain ⟨hLength, hGet⟩ := List.getElem?_eq_some_iff.1 ht
  have hSplit : (d.scan source).tokens =
      (d.scan source).tokens.take i ++ t :: (d.scan source).tokens.drop (i + 1) := by
    rw [← hGet, ← List.drop_eq_getElem_cons hLength, List.take_append_drop]
  obtain ⟨hBefore, hAfter⟩ := parts_of_dot hSplit hKind
  rw [List.head?_drop] at hAfter
  cases i with
  | zero => cases hBefore
  | succ j =>
    rw [List.getLast?_take, if_neg (Nat.succ_ne_zero j), Nat.add_sub_cancel,
      List.getElem?_eq_getElem (by omega), Option.some_or] at hBefore
    refine ⟨j, rfl, ?_, h, hAfter⟩
    rw [PartAt, List.getElem?_eq_getElem (by omega)]
    exact hBefore

/-- **Dotted names are exactly the maximal runs of parts and dots.**  For every list of tokens,
the names come in order and share no token, and a range of tokens is one of them exactly if
parts and dots alternate in it and go on on neither side.  The span of a name goes from the
start of its first token to the end of its last one, and it has as many parts as its range.
Every dot of a source belongs to exactly one name. -/
theorem find_maximalRuns :
    (∀ tokens : List Token,
      (find tokens).Pairwise (fun n m => n.tokens.stop ≤ m.tokens.start) ∧
        (∀ r, (∃ n ∈ find tokens, n.tokens = r) ↔ MaximalRun tokens r) ∧
        ∀ n ∈ find tokens,
          (∃ first last, tokens[n.tokens.start]? = some first ∧
            tokens[n.tokens.stop - 1]? = some last ∧
            n.span = ⟨first.span.start, last.span.stop, first.span.line, first.span.column⟩) ∧
          n.partCount =
            ((tokens.drop n.tokens.start).take n.tokens.length).countP (·.kind.isNamePart)) ∧
      ∀ (d : Dialect) (source : List Char) (i : Nat), DotAt (d.scan source).tokens i →
        ∃! n, n ∈ find (d.scan source).tokens ∧ n.tokens.start ≤ i ∧ i < n.tokens.stop := by
  refine ⟨fun tokens => ⟨pairwise_find tokens, exists_mem_find_iff tokens, fun n hn => ?_⟩, ?_⟩
  · have hRun := (exists_mem_find_iff tokens n.tokens).1 ⟨n, hn, rfl⟩
    exact ⟨span_of_mem_findFrom List.drop_zero hn, hRun.countP_parts.symm⟩
  · intro d source i hDot
    obtain ⟨j, rfl, hLink⟩ := link_of_dotAt hDot
    obtain ⟨n, hn, hStart, hStop⟩ := exists_mem_findFrom_of_link List.drop_zero
      (separates_zero _) hLink (Nat.zero_le j)
    have hRange : n.tokens.start ≤ j + 1 ∧ j + 1 < n.tokens.stop := by omega
    refine ⟨n, ⟨hn, hRange⟩, ?_⟩
    rintro m ⟨hm, hOther⟩
    exact eq_of_mem_find hm hn hOther hRange

/-- Two names side by side: the first one ends where the second one begins. -/
theorem find_maximalRuns_adjacent :
    (find (Preset.standard.rules.scan "a.\"b\"c.d".toList).tokens).map (·.tokens) =
        [⟨0, 3⟩, ⟨3, 6⟩] ∧
      MaximalRun (Preset.standard.rules.scan "a.\"b\"c.d".toList).tokens ⟨3, 6⟩ ∧
      ∃! n, n ∈ find (Preset.standard.rules.scan "a.\"b\"c.d".toList).tokens ∧
        n.tokens.start ≤ 4 ∧ 4 < n.tokens.stop := by
  have hFind : (find (Preset.standard.rules.scan "a.\"b\"c.d".toList).tokens).map (·.tokens) =
      [⟨0, 3⟩, ⟨3, 6⟩] := by
    decide +kernel
  have hDot : DotAt (Preset.standard.rules.scan "a.\"b\"c.d".toList).tokens 4 := by
    decide +kernel
  have hMem : ⟨3, 6⟩ ∈
      (find (Preset.standard.rules.scan "a.\"b\"c.d".toList).tokens).map (·.tokens) := by
    rw [hFind]
    exact List.mem_cons_of_mem _ List.mem_cons_self
  obtain ⟨hRuns, hDots⟩ := find_maximalRuns
  exact ⟨hFind, ((hRuns _).2.1 ⟨3, 6⟩).1 (List.mem_map.1 hMem), hDots _ _ 4 hDot⟩

end DottedName

end SqlTemplate
