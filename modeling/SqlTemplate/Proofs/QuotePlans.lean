import SqlTemplate.Proofs.Exchange
import SqlTemplate.Proofs.RegionBody

/-!
# What an apostrophe opens

The same rules of escaping are followed in three places: by the plan that looks ahead from an
apostrophe, by the search for the end of a quoted run, and inside a quoted region, piece by
piece.  All three pass over the same items of a string (`QuotePlan.Skips`): doubled quotes,
escaped characters and plain ones.

* `QuotePlan.OpensAt` says where a placeholder opens in a string, by what stands before the
  braces and without any of the three.
* `QuotePlan.outcome_ofText`: a string is planned where the run is closed, and a region where a
  placeholder opens before that.
* `Region.scan_beforeOpener`: in such a region nothing but whitespace and rejected text is read
  before the first placeholder that opens.

The main statement is `QuotePlan.ofText_agrees`.
-/

namespace SqlTemplate

open Verdict (accept reject)

/-! ### Placeholders in a string -/

theorem Placeholder.startsOpen_cons (c : Char) (rest : List Char) :
    startsOpen (c :: rest) = (c == '{' && rest.head? == some '{') := by
  cases rest <;> simp [startsOpen, Brackets.startsWith, Brackets.placeholder]

/-- Number of backslashes right before a place in a text. -/
def Text.slashesBefore (text : List Char) (i : Nat) : Nat :=
  ((text.take i).reverse.takeWhile (· == '\\')).length

namespace QuotePlan

/-- A placeholder opens at this place of a string.  Where backslashes escape, an even number of
them stands before it, so that none of them takes the first brace with it. -/
structure OpensAt (escapes : Bool) (text : List Char) (i : Nat) : Prop where
  starts : Placeholder.startsOpen (text.drop i) = true
  free : escapes = true → Text.slashesBefore text i % 2 = 0

end QuotePlan

namespace Text

theorem slashesBefore_le (text : List Char) (i : Nat) :
    slashesBefore text i ≤ (text.take i).length := by
  have hLe := length_takeWhile_le (· == '\\') (text.take i).reverse
  rwa [List.length_reverse] at hLe

theorem slashesBefore_succ (c : Char) (text : List Char) (i : Nat) :
    slashesBefore (c :: text) (i + 1) =
      if slashesBefore text i = (text.take i).length ∧ c = '\\' then slashesBefore text i + 1
      else slashesBefore text i := by
  rw [slashesBefore, List.take_succ_cons, List.reverse_cons, List.takeWhile_append,
    List.length_reverse, ← slashesBefore]
  by_cases hAll : slashesBefore text i = (text.take i).length
  · by_cases hc : c = '\\' <;> simp [hAll, hc]
  · rw [if_neg hAll, if_neg fun hBoth => hAll hBoth.1, slashesBefore]

theorem slashesBefore_of_ne {c : Char} (hc : c ≠ '\\') (text : List Char) (i : Nat) :
    slashesBefore (c :: text) (i + 1) = slashesBefore text i := by
  rw [slashesBefore_succ, if_neg fun hBoth => hc hBoth.2]

/-- An escaped character, also a backslash, escapes nothing itself. -/
theorem slashesBefore_escaped (c : Char) (text : List Char) (i : Nat) :
    slashesBefore ('\\' :: c :: text) (i + 2) % 2 = slashesBefore text i % 2 := by
  have hLe := slashesBefore_le text i
  rw [slashesBefore_succ, slashesBefore_succ, List.take_succ_cons, List.length_cons]
  by_cases hAll : slashesBefore text i = (text.take i).length ∧ c = '\\'
  · rw [if_pos hAll, if_pos ⟨by omega, rfl⟩]
    omega
  · rw [if_neg hAll, if_neg (by omega)]

end Text

namespace QuotePlan

variable {escapes : Bool}

theorem opensAt_zero {text : List Char} :
    OpensAt escapes text 0 ↔ Placeholder.startsOpen text = true :=
  ⟨fun h => h.starts, fun h => ⟨h, fun _ => rfl⟩⟩

theorem opensAt_succ {c : Char} (hc : escapes = true → c ≠ '\\') {text : List Char} {i : Nat} :
    OpensAt escapes (c :: text) (i + 1) ↔ OpensAt escapes text i := by
  have hFree : (escapes = true → Text.slashesBefore (c :: text) (i + 1) % 2 = 0) ↔
      (escapes = true → Text.slashesBefore text i % 2 = 0) :=
    forall_congr' fun hOn => by rw [Text.slashesBefore_of_ne (hc hOn)]
  exact ⟨fun h => ⟨h.starts, hFree.1 h.free⟩, fun h => ⟨h.starts, hFree.2 h.free⟩⟩

/-! ### Items -/

/-- These characters stand before the text in a string and are passed over as an item of it. -/
structure Skips (escapes : Bool) (item text : List Char) : Prop where
  closing : Quoted.closing? '\'' escapes (item ++ text) =
    (Quoted.closing? '\'' escapes text).map (· + item.length)
  none : ∀ i < item.length, ¬OpensAt escapes (item ++ text) i
  shift : ∀ i, OpensAt escapes (item ++ text) (i + item.length) ↔ OpensAt escapes text i

theorem skips_doubled (escapes : Bool) (text : List Char) : Skips escapes ['\'', '\''] text where
  closing := by simp [Quoted.closing?]
  none := by
    intro i hi hOpen
    rw [List.length_cons, List.length_singleton] at hi
    obtain rfl | rfl : i = 0 ∨ i = 1 := by omega
    · cases hOpen.starts
    · cases text <;> cases hOpen.starts
  shift := fun i => (opensAt_succ fun _ => by decide).trans (opensAt_succ fun _ => by decide)

theorem skips_escaped (c : Char) (text : List Char) : Skips true ['\\', c] text where
  closing := by simp [Quoted.closing?]
  none := by
    intro i hi hOpen
    rw [List.length_cons, List.length_singleton] at hi
    obtain rfl | rfl : i = 0 ∨ i = 1 := by omega
    · cases hOpen.starts
    · cases hOpen.free rfl
  shift := by
    intro i
    have hFree := Text.slashesBefore_escaped c text i
    exact ⟨fun h => ⟨h.starts, fun hOn => hFree ▸ h.free hOn⟩,
      fun h => ⟨h.starts, fun hOn => hFree.trans (h.free hOn)⟩⟩

theorem skips_plain {c : Char} {text : List Char} (hQuote : c ≠ '\'')
    (hEscape : escapes = true → c ≠ '\\')
    (hOpen : Placeholder.startsOpen (c :: text) = false) : Skips escapes [c] text where
  closing := Quoted.closing?_plain hEscape hQuote text
  none := by
    intro i hi hOpens
    rw [List.length_singleton, Nat.lt_one_iff] at hi
    subst hi
    rw [opensAt_zero, List.singleton_append, hOpen] at hOpens
    cases hOpens
  shift := fun i => opensAt_succ hEscape

/-- What opens in a text opens in it as well with an item in front. -/
theorem Skips.forall_not {item text : List Char} (h : Skips escapes item text) {stop : Nat}
    (hNone : ∀ i < stop, ¬OpensAt escapes text i) :
    ∀ i < stop + item.length, ¬OpensAt escapes (item ++ text) i := by
  intro i hi
  by_cases hItem : i < item.length
  · exact h.none i hItem
  · obtain ⟨j, rfl⟩ := Nat.exists_eq_add_of_le' (Nat.le_of_not_lt hItem)
    rw [h.shift]
    exact hNone j (by omega)

/-- A text of items up to the first placeholder that opens, at the head of `rest`. -/
inductive BeforeOpener (escapes : Bool) (rest : List Char) : List Char → Prop
  | nil : Placeholder.startsOpen rest = true → BeforeOpener escapes rest []
  | doubled {body : List Char} : BeforeOpener escapes rest body →
      BeforeOpener escapes rest ('\'' :: '\'' :: body)
  | escaped {c : Char} {body : List Char} : escapes = true → BeforeOpener escapes rest body →
      BeforeOpener escapes rest ('\\' :: c :: body)
  | plain {c : Char} {body : List Char} : c ≠ '\'' → (escapes = true → c ≠ '\\') →
      Placeholder.startsOpen (c :: (body ++ rest)) = false → BeforeOpener escapes rest body →
      BeforeOpener escapes rest (c :: body)

/-- The first placeholder of a text opens after so many characters, and before the end of the
quoted run. -/
structure FirstOpener (escapes : Bool) (text : List Char) (n : Nat) : Prop where
  opens : OpensAt escapes text n
  first : ∀ i < n, ¬OpensAt escapes text i
  lt_closing : ∀ stop, Quoted.closing? '\'' escapes text = some stop → n < stop

theorem FirstOpener.skips {item text : List Char} {n : Nat} (h : FirstOpener escapes text n)
    (hItem : Skips escapes item text) : FirstOpener escapes (item ++ text) (n + item.length) where
  opens := (hItem.shift n).2 h.opens
  first := hItem.forall_not h.first
  lt_closing := by
    intro stop hStop
    rw [hItem.closing] at hStop
    obtain ⟨m, hm, rfl⟩ := Option.map_eq_some_iff.1 hStop
    exact Nat.add_lt_add_right (h.lt_closing m hm) _

theorem BeforeOpener.firstOpener {body rest : List Char} (h : BeforeOpener escapes rest body) :
    FirstOpener escapes (body ++ rest) body.length := by
  induction h with
  | nil hOpen =>
    exact ⟨opensAt_zero.2 hOpen, fun i hi => absurd hi (Nat.not_lt_zero i),
      fun stop hStop => Quoted.closing?_pos hStop⟩
  | doubled _ ih => exact ih.skips (skips_doubled escapes _)
  | escaped hOn _ ih =>
    subst hOn
    exact ih.skips (skips_escaped _ _)
  | plain hQuote hEscape hOpen _ ih => exact ih.skips (skips_plain hQuote hEscape hOpen)

/-! ### The plan and the quoted run -/

/-- What a plan says about the text after the apostrophe. -/
inductive Outcome (escapes : Bool) (text : List Char) : QuotePlan → Prop
  | string {n : Nat} : Quoted.closing? '\'' escapes text = some n →
      (∀ i < n, ¬OpensAt escapes text i) → Outcome escapes text (string n)
  | unterminated : Quoted.closing? '\'' escapes text = none →
      (∀ i < text.length, ¬OpensAt escapes text i) → Outcome escapes text unterminated
  | region {body rest : List Char} : text = body ++ rest → BeforeOpener escapes rest body →
      Outcome escapes text region

/-- One more item in front shifts the plan. -/
theorem Outcome.shift {item text : List Char} {plan : QuotePlan} (h : Outcome escapes text plan)
    (hItem : Skips escapes item text)
    (hBefore : ∀ body rest, text = body ++ rest → BeforeOpener escapes rest body →
      BeforeOpener escapes rest (item ++ body)) :
    Outcome escapes (item ++ text) (plan.shift item.length) := by
  cases h with
  | string hClosing hNone =>
    refine .string ?_ (hItem.forall_not hNone)
    rw [hItem.closing, hClosing, Option.map_some]
  | unterminated hClosing hNone =>
    refine .unterminated ?_ ?_
    · rw [hItem.closing, hClosing, Option.map_none]
    · rw [List.length_append, Nat.add_comm]
      exact hItem.forall_not hNone
  | region hText hBody =>
    exact .region (by rw [hText, List.append_assoc]) (hBefore _ _ hText hBody)

theorem outcome_closed (escapes : Bool) {rest : List Char} (h : rest.head? ≠ some '\'') :
    Outcome escapes ('\'' :: rest) (string 1) := by
  refine .string (Quoted.closing?_body (fun _ => by decide) .nil h) fun i hi hOpen => ?_
  rw [Nat.lt_one_iff] at hi
  subst hi
  have hStarts := opensAt_zero.1 hOpen
  rw [Region.startsOpen_apostrophe] at hStarts
  cases hStarts

/-- **The plan and the search for the closing quote agree.** -/
theorem outcome_ofText (escapes : Bool) (text : List Char) :
    Outcome escapes text (ofText escapes text) := by
  fun_induction ofText escapes text with
  | case1 => exact .unterminated rfl fun i hi => absurd hi (Nat.not_lt_zero i)
  | case2 c hEscape =>
    rw [Bool.and_eq_true, beq_iff_eq] at hEscape
    obtain ⟨rfl, rfl⟩ := hEscape
    refine .unterminated rfl fun i hi hOpen => ?_
    rw [List.length_singleton, Nat.lt_one_iff] at hi
    subst hi
    cases hOpen.starts
  | case3 c hEscape next after ih =>
    rw [Bool.and_eq_true, beq_iff_eq] at hEscape
    obtain ⟨rfl, rfl⟩ := hEscape
    exact ih.shift (skips_escaped next after) fun _ _ _ hBody => .escaped rfl hBody
  | case4 c hEscape hQuote =>
    rw [beq_iff_eq] at hQuote
    subst hQuote
    exact outcome_closed escapes (by simp)
  | case5 c hEscape hQuote next after hNext ih =>
    rw [beq_iff_eq] at hQuote hNext
    subst hQuote hNext
    exact ih.shift (skips_doubled escapes after) fun _ _ _ hBody => .doubled hBody
  | case6 c hEscape hQuote next after hNext =>
    rw [beq_iff_eq] at hQuote hNext
    subst hQuote
    exact outcome_closed escapes (by simpa using hNext)
  | case7 c rest hEscape hQuote hBrace =>
    rw [← Placeholder.startsOpen_cons] at hBrace
    exact .region rfl (.nil hBrace)
  | case8 c rest hEscape hQuote hBrace ih =>
    rw [← Placeholder.startsOpen_cons, Bool.not_eq_true] at hBrace
    simp only [Bool.and_eq_true, beq_iff_eq, not_and] at hEscape hQuote
    refine ih.shift (skips_plain hQuote hEscape hBrace) fun body after hText hBody => ?_
    rw [hText] at hBrace
    exact .plain hQuote hEscape hBrace hBody

/-! ### Inside the region -/

section BeforeOpener

variable {body rest : List Char}

theorem BeforeOpener.startsOpen_eq_false {c : Char} (h : BeforeOpener escapes rest (c :: body)) :
    Placeholder.startsOpen (c :: (body ++ rest)) = false := by
  rw [← Bool.not_eq_true]
  intro hStarts
  exact h.firstOpener.first 0 (Nat.succ_pos _) (opensAt_zero.2 hStarts)

/-- Whitespace is read no further than to the opener. -/
theorem BeforeOpener.exists_spaceRun (h : BeforeOpener escapes rest body) :
    ∃ read more, body = read ++ more ∧ Text.spaceRun (body ++ rest) = read.length ∧
      BeforeOpener escapes rest more := by
  induction h with
  | nil hOpen =>
    obtain ⟨after, rfl⟩ := Placeholder.startsOpen_iff.1 hOpen
    exact ⟨[], [], rfl, rfl, .nil hOpen⟩
  | @doubled body hBody => exact ⟨[], _, rfl, rfl, .doubled hBody⟩
  | @escaped c body hOn hBody => exact ⟨[], _, rfl, rfl, .escaped hOn hBody⟩
  | @plain c body hQuote hEscape hOpen hBody ih =>
    cases hSpace : Text.isSpace c with
    | false =>
      refine ⟨[], _, rfl, ?_, .plain hQuote hEscape hOpen hBody⟩
      simp [Text.spaceRun, hSpace]
    | true =>
      obtain ⟨read, more, rfl, hRun, hMore⟩ := ih
      refine ⟨c :: read, more, rfl, ?_, hMore⟩
      rw [List.length_cons, ← hRun]
      simp [Text.spaceRun, hSpace]

/-- Neither is other text. -/
theorem BeforeOpener.exists_contentLength (h : BeforeOpener escapes rest body) :
    ∃ read more, body = read ++ more ∧
      Region.contentLength escapes 0 (body ++ rest) = read.length ∧
      BeforeOpener escapes rest more := by
  induction h with
  | nil hOpen =>
    obtain ⟨after, rfl⟩ := Placeholder.startsOpen_iff.1 hOpen
    refine ⟨[], [], rfl, ?_, .nil hOpen⟩
    simp [Region.contentLength_cons, hOpen]
  | @doubled body hBody ih =>
    obtain ⟨read, more, rfl, hLength, hMore⟩ := ih
    refine ⟨'\'' :: '\'' :: read, more, rfl, ?_, hMore⟩
    rw [List.length_cons, List.length_cons, ← hLength]
    simp [Region.contentLength_cons]
  | @escaped c body hOn hBody ih =>
    subst hOn
    obtain ⟨read, more, rfl, hLength, hMore⟩ := ih
    refine ⟨'\\' :: c :: read, more, rfl, ?_, hMore⟩
    rw [List.length_cons, List.length_cons, ← hLength]
    simp [Region.contentLength_cons]
  | @plain c body hQuote hEscape hOpen hBody ih =>
    have hPlain : (escapes && c == '\\') = false := by
      simpa [Bool.and_eq_false_imp] using hEscape
    cases hSpace : Text.isSpace c with
    | true =>
      refine ⟨[], _, rfl, ?_, .plain hQuote hEscape hOpen hBody⟩
      simp [Region.contentLength_cons, hQuote, hPlain, hSpace]
    | false =>
      obtain ⟨read, more, rfl, hLength, hMore⟩ := ih
      refine ⟨c :: read, more, rfl, ?_, hMore⟩
      rw [List.append_assoc] at hOpen
      rw [List.length_cons, ← hLength, List.append_assoc]
      simp [Region.contentLength_cons, hQuote, hPlain, hSpace, hOpen]

end BeforeOpener

end QuotePlan

namespace Region

variable {d : Dialect}

/-- The verdicts on the text of a region before its first placeholder. -/
def textVerdicts : List Verdict := [accept .whitespace, reject .unexpectedRegionText]

/-- **One step before the first placeholder** stays before it. -/
theorem next_beforeOpener {c : Char} {body rest : List Char}
    (h : QuotePlan.BeforeOpener (d.on .backslashEscapes) rest (c :: body)) :
    (next d 0 (c :: (body ++ rest))).verdict ∈ textVerdicts ∧
      ∃ read more, c :: body = read ++ more ∧
        (next d 0 (c :: (body ++ rest))).length = read.length ∧
        QuotePlan.BeforeOpener (d.on .backslashEscapes) rest more := by
  rcases next_cases d 0 c (body ++ rest) with
    ⟨_, hNext⟩ | ⟨hOpen, _⟩ | ⟨rfl, hHead, _⟩ | ⟨_, _, _, hNext⟩
  · rw [hNext]
    exact ⟨List.mem_cons_self, h.exists_spaceRun⟩
  · rw [h.startsOpen_eq_false] at hOpen
    cases hOpen
  · -- an apostrophe before the first placeholder is doubled
    exfalso
    cases h with
    | doubled _ => exact hHead rfl rfl
    | plain hQuote _ _ _ => exact hQuote rfl
  · rw [hNext]
    exact ⟨by simp [textVerdicts], h.exists_contentLength⟩

/-- **Before the first placeholder** only whitespace and rejected text are read. -/
theorem scan_beforeOpener {body rest : List Char}
    (h : QuotePlan.BeforeOpener (d.on .backslashEscapes) rest body) :
    ∃ xs, textOf xs = body ∧ (∀ x ∈ xs, x.verdict ∈ textVerdicts) ∧
      scan d 0 (body ++ rest) =
        ⟨xs ++ (scan d 0 rest).lexemes, (scan d 0 rest).after⟩ := by
  induction hLength : body.length using Nat.strongRecOn generalizing body with
  | ind k ih =>
    subst hLength
    cases body with
    | nil => exact ⟨[], rfl, by simp, rfl⟩
    | cons c body =>
      obtain ⟨hVerdict, read, more, hBody, hLength, hMore⟩ := next_beforeOpener h
      have hPos := next_pos d 0 c (body ++ rest)
      have hInner : (next d 0 (c :: (body ++ rest))).verdict ≠ accept .regionQuote := by
        intro hQuote
        rw [hQuote] at hVerdict
        revert hVerdict
        decide
      have hText : c :: (body ++ rest) = read ++ (more ++ rest) := by
        rw [← List.cons_append, hBody, List.append_assoc]
      have hShort : more.length < (c :: body).length := by
        rw [hBody, List.length_append]
        omega
      obtain ⟨xs, hxs, hVerdicts, hScan⟩ := ih more.length hShort hMore rfl
      refine ⟨(next d 0 (c :: (body ++ rest))).lexeme (c :: (body ++ rest)) :: xs, ?_, ?_, ?_⟩
      · rw [textOf_cons, hxs, Match.lexeme, hLength, hText, List.take_left, hBody]
      · exact List.forall_mem_cons.2 ⟨hVerdict, hVerdicts⟩
      · have hDrop : (c :: (body ++ rest)).drop (next d 0 (c :: (body ++ rest))).length =
            more ++ rest := by
          rw [hLength, hText, List.drop_left]
        rw [List.cons_append, scan_of_inner (List.cons_ne_nil _ _) hInner,
          h.startsOpen_eq_false, if_neg Bool.false_ne_true, hDrop, hScan]
        rfl

end Region

namespace QuotePlan

/-- Where the search for the end of a quoted run stops: after its closing quote, or at the end
of the text. -/
def reach (escapes : Bool) (text : List Char) : Nat :=
  (Quoted.length? '\'' escapes text).getD text.length

theorem reach_cons (escapes : Bool) (rest : List Char) :
    reach escapes ('\'' :: rest) =
      (Quoted.closing? '\'' escapes rest).getD rest.length + 1 := by
  rw [reach, Quoted.length?, List.tail_cons, List.length_cons]
  cases Quoted.closing? '\'' escapes rest <;> rfl

theorem not_opensAt_apostrophe (rest : List Char) : ¬OpensAt escapes ('\'' :: rest) 0 := by
  rw [opensAt_zero, Region.startsOpen_apostrophe]
  exact Bool.false_ne_true

theorem opensAt_apostrophe {rest : List Char} {i : Nat} :
    OpensAt escapes ('\'' :: rest) (i + 1) ↔ OpensAt escapes rest i :=
  opensAt_succ fun _ => by decide

/-- What opens behind an apostrophe opens in the text after it. -/
theorem exists_opensAt_apostrophe {rest : List Char} {stop : Nat} :
    (∃ i < stop + 1, OpensAt escapes ('\'' :: rest) i) ↔ ∃ i < stop, OpensAt escapes rest i := by
  constructor
  · rintro ⟨i, hi, hOpens⟩
    cases i with
    | zero => exact absurd hOpens (not_opensAt_apostrophe rest)
    | succ i => exact ⟨i, Nat.lt_of_succ_lt_succ hi, opensAt_apostrophe.1 hOpens⟩
  · rintro ⟨i, hi, hOpens⟩
    exact ⟨i + 1, Nat.succ_lt_succ hi, opensAt_apostrophe.2 hOpens⟩

theorem FirstOpener.lt_reach {text : List Char} {n : Nat} (h : FirstOpener escapes text n) :
    n < (Quoted.closing? '\'' escapes text).getD text.length := by
  cases hClosing : Quoted.closing? '\'' escapes text with
  | some stop => exact h.lt_closing stop hClosing
  | none =>
    obtain ⟨after, hAfter⟩ := Placeholder.startsOpen_iff.1 h.opens.starts
    have hLength := congrArg List.length hAfter
    rw [List.length_drop, List.length_cons] at hLength
    rw [Option.getD_none]
    omega

/-- **A region is planned exactly if a placeholder opens before the run ends.** -/
theorem Outcome.eq_region_iff {text : List Char} {plan : QuotePlan}
    (h : Outcome escapes text plan) :
    plan = .region ↔
      ∃ i < (Quoted.closing? '\'' escapes text).getD text.length, OpensAt escapes text i := by
  cases h with
  | string hClosing hNone => simpa [hClosing] using hNone
  | unterminated hClosing hNone => simpa [hClosing] using hNone
  | region hText hBody =>
    subst hText
    have hFirst := hBody.firstOpener
    exact ⟨fun _ => ⟨_, hFirst.lt_reach, hFirst.opens⟩, fun _ => rfl⟩

/-- **Plan, string and region agree** at every apostrophe.  If a string is planned, the quoted
run there has its length; if a string that never closes is planned, the run is never closed and
all of the text is rejected.  A region is planned exactly if a placeholder opens before the run
ends.  Reading the region then comes to the first such placeholder, with nothing but whitespace
and rejected text before it, and reads the placeholder there. -/
theorem ofText_agrees (escapes : Bool) (rest : List Char) :
    (∀ n, ofText escapes rest = .string n →
      Quoted.length? '\'' escapes ('\'' :: rest) = some (n + 1)) ∧
    (ofText escapes rest = .unterminated →
      Quoted.length? '\'' escapes ('\'' :: rest) = none ∧
        ∀ d : Dialect, d.on .backslashEscapes = escapes →
          Region.apostrophe? d ('\'' :: rest) =
            some (.reject .unterminatedString ('\'' :: rest).length)) ∧
    (ofText escapes rest = .region ↔
      ∃ i < reach escapes ('\'' :: rest), OpensAt escapes ('\'' :: rest) i) ∧
    ∀ (d : Dialect) (before : Option TokenKind), d.on .backslashEscapes = escapes →
      (Lexeme.next d before ('\'' :: rest)).verdict = accept .regionQuote →
        ∃ body opener xs, rest = body ++ opener ∧
          OpensAt escapes ('\'' :: rest) (body.length + 1) ∧
          (∀ i < body.length + 1, ¬OpensAt escapes ('\'' :: rest) i) ∧
          textOf xs = body ∧ (∀ x ∈ xs, x.verdict ∈ Region.textVerdicts) ∧
          Region.scan d 0 rest =
            ⟨xs ++ (Region.scan d 0 opener).lexemes, (Region.scan d 0 opener).after⟩ ∧
          Region.next d 0 opener = Placeholder.scan d opener := by
  have hOutcome := outcome_ofText escapes rest
  refine ⟨fun n hPlan => ?_, fun hPlan => ?_, ?_, ?_⟩
  · rw [hPlan] at hOutcome
    cases hOutcome with
    | string hClosing _ => rw [Quoted.length?, List.tail_cons, hClosing, Option.map_some]
  · constructor
    · rw [hPlan] at hOutcome
      cases hOutcome with
      | unterminated hClosing _ => rw [Quoted.length?, List.tail_cons, hClosing, Option.map_none]
    · rintro d rfl
      simp only [Region.apostrophe?, hPlan, List.length_cons]
  · rw [hOutcome.eq_region_iff, reach_cons, exists_opensAt_apostrophe]
  · rintro d before rfl hQuote
    obtain ⟨_, ⟨⟩, hPlan, _⟩ := Lexeme.next_eq_regionQuote hQuote
    rw [hPlan] at hOutcome
    cases hOutcome with
    | @region body opener hText hBody =>
      subst hText
      have hFirst := hBody.firstOpener
      obtain ⟨xs, hxs, hVerdicts, hScan⟩ := Region.scan_beforeOpener hBody
      refine ⟨body, opener, xs, rfl, opensAt_apostrophe.2 hFirst.opens, ?_, hxs, hVerdicts,
        hScan, ?_⟩
      · intro i hi hOpens
        obtain ⟨j, hj, hOpens⟩ := exists_opensAt_apostrophe.1 ⟨i, hi, hOpens⟩
        exact hFirst.first j hj hOpens
      · have hOpener := hFirst.opens.starts
        rw [List.drop_left] at hOpener
        rw [Region.next_of_startsOpen d 0 hOpener]
        simp [Region.judged]

end QuotePlan

end SqlTemplate
