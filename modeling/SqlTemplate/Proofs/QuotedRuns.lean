import SqlTemplate.Lexeme.Symbol
import SqlTemplate.Proofs.Quotation

/-!
# Closed quoted runs

A quoted run is closed if it is the body of one between two quotes and no further quote
follows.  Strings, quoted identifiers, literals, special variables and the strings in
placeholders all look for the length of such a run.

* `Quoted.length?_eq_some_iff`: the length that is found is that of the closed run at the head of
  the text.
* `Quoted.delimited_eq`: where there is none, all of the text is rejected.
* `Quoted.closesAt_literal`: a value between quotes is such a run.

The main statement is `Quoted.length?_closedRun`.
-/

namespace SqlTemplate.Quoted

variable {quote : Char} {escapes : Bool}

/-- A body between two quotes. -/
def IsRun (quote : Char) (escapes : Bool) (run : List Char) : Prop :=
  ∃ body, Body quote escapes body ∧ run = quote :: (body ++ [quote])

/-- The first `n` characters of a text are a quoted run, and no quote follows them. -/
structure ClosesAt (quote : Char) (escapes : Bool) (text : List Char) (n : Nat) : Prop where
  le : n ≤ text.length
  isRun : IsRun quote escapes (text.take n)
  head : (text.drop n).head? ≠ some quote

/-- **The length that is found is that of the closed run** at the head of the text. -/
theorem length?_eq_some_iff (hSlash : escapes = true → quote ≠ '\\') {rest : List Char} {n : Nat} :
    length? quote escapes (quote :: rest) = some n ↔ ClosesAt quote escapes (quote :: rest) n := by
  rw [length?, List.tail_cons, Option.map_eq_some_iff]
  constructor
  · rintro ⟨m, hm, rfl⟩
    obtain ⟨body, after, hBody, rfl, hHead, rfl⟩ := (closing?_eq_some_iff hSlash).1 hm
    have hSplit : quote :: (body ++ quote :: after) = quote :: (body ++ [quote]) ++ after := by simp
    have hLength : body.length + 1 + 1 = (quote :: (body ++ [quote])).length := by simp
    rw [hSplit, hLength]
    refine ⟨by simp, ?_, ?_⟩
    · rw [List.take_left]
      exact ⟨body, hBody, rfl⟩
    · rw [List.drop_left]
      exact hHead
  · rintro ⟨hLe, ⟨body, hBody, hRun⟩, hHead⟩
    have hLength := congrArg List.length hRun
    rw [List.length_take, Nat.min_eq_left hLe, List.length_cons, List.length_append,
      List.length_singleton] at hLength
    have hText := List.take_append_drop n (quote :: rest)
    rw [hRun, List.cons_append, List.append_assoc, List.singleton_append, List.cons.injEq] at hText
    refine ⟨body.length + 1, ?_, hLength.symm⟩
    rw [← hText.2]
    exact closing?_body hSlash hBody hHead

/-- **Where no run is closed, all of the text is rejected.** -/
theorem delimited_eq (quote : Char) (escapes : Bool) (kind : TokenKind) (unclosed : Fault)
    (text : List Char) :
    Symbol.delimited quote escapes kind unclosed text =
      ((length? quote escapes text).map (Match.accept kind)).getD
        (.reject unclosed text.length) := by
  rw [Symbol.delimited]
  cases length? quote escapes text <;> rfl

/-- **A value between quotes is a closed run** wherever no quote follows it. -/
theorem closesAt_literal (quote : Char) (escapes : Bool) (value : List Char) {after : List Char}
    (h : after.head? ≠ some quote) :
    ClosesAt quote escapes (literal quote escapes value ++ after)
      (literal quote escapes value).length := by
  refine ⟨by simp, ?_, ?_⟩
  · rw [List.take_left]
    exact ⟨_, body_encode quote escapes value, rfl⟩
  · rw [List.drop_left]
    exact h

/-- **Exactly the closed quoted runs are recognised.**  Let the quote be no escape itself.  At
the head of a text that starts with it, the length that is found is that of the closed run
there; if there is no such run, none is found, and a lexeme between such quotes is rejected with
all of the text.  Any value between quotes is found with its whole length. -/
theorem length?_closedRun (quote : Char) (escapes : Bool) (hSlash : escapes = true → quote ≠ '\\') :
    (∀ rest n, length? quote escapes (quote :: rest) = some n ↔
      ClosesAt quote escapes (quote :: rest) n) ∧
    (∀ rest kind unclosed,
      (∀ n, ClosesAt quote escapes (quote :: rest) n →
        Symbol.delimited quote escapes kind unclosed (quote :: rest) = .accept kind n) ∧
      ((∀ n, ¬ClosesAt quote escapes (quote :: rest) n) →
        length? quote escapes (quote :: rest) = none ∧
        Symbol.delimited quote escapes kind unclosed (quote :: rest) =
          .reject unclosed (quote :: rest).length)) ∧
    ∀ value after, after.head? ≠ some quote →
      length? quote escapes (literal quote escapes value ++ after) =
        some (literal quote escapes value).length := by
  refine ⟨fun rest n => length?_eq_some_iff hSlash, fun rest kind unclosed => ⟨?_, ?_⟩, ?_⟩
  · intro n hClosed
    rw [delimited_eq, (length?_eq_some_iff hSlash).2 hClosed]
    rfl
  · intro hNone
    have hOpen : length? quote escapes (quote :: rest) = none := by
      rw [Option.eq_none_iff_forall_ne_some]
      exact fun n hn => hNone n ((length?_eq_some_iff hSlash).1 hn)
    refine ⟨hOpen, ?_⟩
    rw [delimited_eq, hOpen]
    rfl
  · intro value after hHead
    exact (length?_eq_some_iff hSlash).2 (closesAt_literal quote escapes value hHead)

/-- An escaped apostrophe and a doubled one, in a string with escapes. -/
theorem length?_closedRun_escaped :
    (true = true → '\'' ≠ '\\') ∧
      length? '\'' true "'a\\'''b' é".toList = some 8 ∧
      length? '\'' true (literal '\'' true "\\'".toList ++ " é".toList) = some 6 := by
  have hSlash : true = true → '\'' ≠ '\\' := fun _ => by decide
  obtain ⟨hRuns, -, hValues⟩ := length?_closedRun '\'' true hSlash
  refine ⟨hSlash, (hRuns "a\\'''b' é".toList 8).2 ⟨by decide, ?_, by decide⟩,
    hValues "\\'".toList " é".toList (by decide)⟩
  refine ⟨"a\\'''b".toList, ?_, by decide⟩
  exact .plain (by decide) (fun _ => by decide) (.escaped rfl (.doubled
    (.plain (by decide) (fun _ => by decide) .nil)))

end SqlTemplate.Quoted
