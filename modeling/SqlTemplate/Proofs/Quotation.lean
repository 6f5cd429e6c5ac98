import SqlTemplate.Proofs.Extent

/-!
# The grammar of quoted runs

`Quoted.Body` says what may stand between two quotes: doubled quotes, escaped
characters where escapes are on, and plain characters.
`Quoted.closing?_eq_some_iff` says that the search for the closing quote finds
exactly the end of such a body, where a quote that is not doubled follows it, and
`Quoted.closing?_eq_none_iff` that it fails exactly on a body, where there are no
escapes.

From this it is plain that a run which closes does not depend on what comes
later (`Quoted.closing?_swap`), and that a run which stays open also stays open
in a shorter text (`Quoted.closing?_truncate`).  Any value can be encoded as such
a body (`Quoted.body_encode`).
-/

namespace SqlTemplate.Quoted

/-- The text between an opening and a closing quote. -/
inductive Body (quote : Char) (escapes : Bool) : List Char → Prop
  | nil : Body quote escapes []
  | doubled {body : List Char} : Body quote escapes body →
      Body quote escapes (quote :: quote :: body)
  | escaped {c : Char} {body : List Char} : escapes = true → Body quote escapes body →
      Body quote escapes ('\\' :: c :: body)
  | plain {c : Char} {body : List Char} : c ≠ quote → (escapes = true → c ≠ '\\') →
      Body quote escapes body → Body quote escapes (c :: body)

variable {quote : Char} {escapes : Bool}

/-- What the search finds is a body with the closing quote after it.  A quote
that is itself an escape is never found. -/
theorem exists_body_of_closing? {text : List Char} {n : Nat}
    (h : closing? quote escapes text = some n) :
    (escapes = true → quote ≠ '\\') ∧
      ∃ body rest, Body quote escapes body ∧ text = body ++ quote :: rest ∧
        rest.head? ≠ some quote ∧ n = body.length + 1 := by
  fun_induction closing? quote escapes text generalizing n with
  | case1 => simp at h
  | case2 => simp at h
  | case3 c hEscape next after ih =>
    obtain ⟨m, hm, rfl⟩ := Option.map_eq_some_iff.1 h
    simp only [Bool.and_eq_true, beq_iff_eq] at hEscape
    obtain ⟨hQuote, body, rest, hBody, rfl, hHead, rfl⟩ := ih hm
    obtain ⟨hOn, rfl⟩ := hEscape
    exact ⟨hQuote, '\\' :: next :: body, rest, .escaped hOn hBody, rfl, hHead, rfl⟩
  | case4 c hEscape hQuote =>
    cases h
    simp only [Bool.and_eq_true, beq_iff_eq, not_and] at hEscape hQuote
    subst hQuote
    exact ⟨hEscape, [], [], .nil, rfl, by simp, rfl⟩
  | case5 c hEscape hQuote next after hNext ih =>
    obtain ⟨m, hm, rfl⟩ := Option.map_eq_some_iff.1 h
    obtain ⟨hSlash, body, rest, hBody, rfl, hHead, rfl⟩ := ih hm
    rw [beq_iff_eq] at hQuote hNext
    subst hQuote hNext
    exact ⟨hSlash, _, rest, .doubled hBody, rfl, hHead, rfl⟩
  | case6 c hEscape hQuote next after hNext =>
    cases h
    simp only [Bool.and_eq_true, beq_iff_eq, not_and] at hEscape hQuote hNext
    subst hQuote
    exact ⟨hEscape, [], next :: after, .nil, rfl, by simpa using hNext, rfl⟩
  | case7 c rest hEscape hQuote ih =>
    obtain ⟨m, hm, rfl⟩ := Option.map_eq_some_iff.1 h
    obtain ⟨hSlash, body, rest, hBody, rfl, hHead, rfl⟩ := ih hm
    simp only [Bool.and_eq_true, beq_iff_eq, not_and] at hEscape hQuote
    exact ⟨hSlash, c :: body, rest, .plain hQuote hEscape hBody, rfl, hHead, rfl⟩

theorem closing?_plain {c : Char} (hEscape : escapes = true → c ≠ '\\') (hc : c ≠ quote)
    (rest : List Char) :
    closing? quote escapes (c :: rest) = (closing? quote escapes rest).map (· + 1) := by
  have hPlain : (escapes && c == '\\') = false := by
    simpa [Bool.and_eq_false_imp] using hEscape
  rw [closing?.eq_def]
  simp [hPlain, hc]

/-- The closing quote after a body is found. -/
theorem closing?_body (hSlash : escapes = true → quote ≠ '\\') {body rest : List Char}
    (hBody : Body quote escapes body) (hHead : rest.head? ≠ some quote) :
    closing? quote escapes (body ++ quote :: rest) = some (body.length + 1) := by
  have hQuote : (escapes && quote == '\\') = false := by
    simpa [Bool.and_eq_false_imp] using hSlash
  induction hBody with
  | nil =>
    cases rest with
    | nil => simp [closing?, hQuote]
    | cons c rest =>
      have hc : c ≠ quote := by simpa using hHead
      simp [closing?, hQuote, hc]
  | doubled _ ih => simp [closing?, hQuote, ih]
  | escaped hOn _ ih => simpa [closing?, hOn] using ih
  | plain hc hEscape _ ih => simp [closing?_plain hEscape hc, ih]

/-- **The search finds exactly the closed bodies.** -/
theorem closing?_eq_some_iff (hSlash : escapes = true → quote ≠ '\\') {text : List Char} {n : Nat} :
    closing? quote escapes text = some n ↔
      ∃ body rest, Body quote escapes body ∧ text = body ++ quote :: rest ∧
        rest.head? ≠ some quote ∧ n = body.length + 1 := by
  constructor
  · exact fun h => (exists_body_of_closing? h).2
  · rintro ⟨body, rest, hBody, rfl, hHead, rfl⟩
    exact closing?_body hSlash hBody hHead

/-- **Without escapes, a run is never closed exactly if all of the text is the body
of one.** -/
theorem closing?_eq_none_iff {quote : Char} {text : List Char} :
    closing? quote false text = none ↔ Body quote false text := by
  constructor
  · intro h
    fun_induction closing? quote false text with
    | case1 => exact .nil
    | case2 c hEscape => cases hEscape
    | case3 c hEscape => cases hEscape
    | case4 => cases h
    | case5 c hEscape hQuote next after hNext ih =>
      rw [beq_iff_eq] at hQuote hNext
      subst hQuote hNext
      exact .doubled (ih (Option.map_eq_none_iff.1 h))
    | case6 => cases h
    | case7 c rest hEscape hQuote ih =>
      rw [beq_iff_eq] at hQuote
      exact .plain hQuote (fun hOn => by cases hOn) (ih (Option.map_eq_none_iff.1 h))
  · intro h
    induction h with
    | nil => rfl
    | doubled _ ih => simp [closing?, ih]
    | escaped hOn => cases hOn
    | plain hc hEscape _ ih => rw [closing?_plain hEscape hc, ih, Option.map_none]

/-- In such a body quotes come in pairs, and a quote after another character is the
first one of a pair. -/
theorem Body.exists_pair {quote : Char} {text after : List Char} (h : Body quote false text) :
    ∀ {before : List Char}, text = before ++ quote :: after → before.getLast? ≠ some quote →
      ∃ rest, after = quote :: rest ∧ Body quote false rest := by
  induction h with
  | nil =>
    intro before hText
    cases before <;> cases hText
  | @doubled body hBody ih =>
    intro before hText hLast
    match before with
    | [] =>
      cases hText
      exact ⟨body, rfl, hBody⟩
    | [b] =>
      cases hText
      exact absurd rfl hLast
    | b :: c :: before =>
      rw [List.cons_append, List.cons_append, List.cons.injEq, List.cons.injEq] at hText
      obtain ⟨rfl, rfl, hText⟩ := hText
      refine ih hText fun hSame => hLast ?_
      cases before with
      | nil => cases hSame
      | cons a before => exact hSame
  | escaped hOn => cases hOn
  | @plain c body hc _ _ ih =>
    intro before hText hLast
    cases before with
    | nil =>
      cases hText
      exact absurd rfl hc
    | cons b before =>
      rw [List.cons_append, List.cons.injEq] at hText
      refine ih hText.2 fun hSame => hLast ?_
      cases before with
      | nil => cases hSame
      | cons a before => exact hSame

/-- **A run that closes before `c` closes at the same place** whatever stands
after `c`. -/
theorem closing?_swap {u t : List Char} {c : Char} {n : Nat}
    (h : closing? quote escapes (u ++ c :: t) = some n) (hn : n ≤ u.length) (t' : List Char) :
    closing? quote escapes (u ++ c :: t') = some n := by
  obtain ⟨hSlash, body, rest, hBody, hText, hHead, rfl⟩ := exists_body_of_closing? h
  have hPrefix : body ++ [quote] <+: u := by
    refine List.prefix_of_prefix_length_le ⟨rest, ?_⟩ (List.prefix_append u (c :: t)) (by simpa)
    rw [hText, List.append_assoc, List.singleton_append]
  obtain ⟨v, rfl⟩ := hPrefix
  have hRest : rest = v ++ c :: t := by simpa using hText.symm
  subst hRest
  rw [List.append_assoc, List.append_assoc, List.singleton_append]
  refine closing?_body hSlash hBody ?_
  cases v with
  | nil => exact hHead
  | cons a v => exact hHead

/-- A run that stays open in a text stays open in the text cut after a
character that is not the quote. -/
theorem closing?_truncate {u t : List Char} {c : Char} (hc : c ≠ quote)
    (h : closing? quote escapes (u ++ c :: t) = none) :
    closing? quote escapes (u ++ [c]) = none := by
  cases hClosed : closing? quote escapes (u ++ [c]) with
  | none => rfl
  | some n =>
    obtain ⟨_, body, rest, _, hText, _, rfl⟩ := exists_body_of_closing? hClosed
    have hLength := congrArg List.length hText
    have hn : body.length + 1 ≤ u.length := by
      rcases List.eq_nil_or_concat rest with rfl | ⟨rest, b, rfl⟩
      · have hLast := congrArg List.getLast? hText
        simp only [List.getLast?_append, List.getLast?_singleton, Option.some_or,
          Option.some.injEq] at hLast
        exact absurd hLast hc
      · simp only [List.length_append, List.length_cons, List.length_nil,
          List.concat_eq_append] at hLength
        omega
    rw [closing?_swap hClosed hn t] at h
    cases h

/-! ### Values between quotes -/

/-- The value as the body of a run: its quotes are doubled, and so are its backslashes where
they escape. -/
def encode (quote : Char) (escapes : Bool) (value : List Char) : List Char :=
  value.flatMap fun c => if c = quote ∨ (escapes = true ∧ c = '\\') then [c, c] else [c]

/-- The value between quotes. -/
def literal (quote : Char) (escapes : Bool) (value : List Char) : List Char :=
  quote :: (encode quote escapes value ++ [quote])

theorem encode_cons (quote : Char) (escapes : Bool) (c : Char) (value : List Char) :
    encode quote escapes (c :: value) =
      (if c = quote ∨ (escapes = true ∧ c = '\\') then [c, c] else [c]) ++
        encode quote escapes value :=
  List.flatMap_cons

theorem head_encode (quote : Char) (escapes : Bool) (value : List Char) :
    (encode quote escapes value).head? = value.head? := by
  cases value with
  | nil => rfl
  | cons c value =>
    rw [encode_cons]
    split <;> rfl

/-- An encoded value is the body of a run. -/
theorem body_encode (quote : Char) (escapes : Bool) (value : List Char) :
    Body quote escapes (encode quote escapes value) := by
  induction value with
  | nil => exact .nil
  | cons c value ih =>
    rw [encode_cons]
    split
    · next hDouble =>
      rcases hDouble with rfl | ⟨hOn, rfl⟩
      · exact .doubled ih
      · exact .escaped hOn ih
    · next hPlain =>
      rw [not_or, not_and] at hPlain
      exact .plain hPlain.1 hPlain.2 ih

end SqlTemplate.Quoted
