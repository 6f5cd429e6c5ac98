/-!
# Quoted runs

A quoted run starts and ends with the same quote.  Inside it a doubled quote
stands for the quote, and where escapes are on a backslash takes the next
character with it.
-/

namespace SqlTemplate.Quoted

/-- Number of characters up to the closing quote and with it, read from just
after the opening quote. -/
def closing? (quote : Char) (escapes : Bool) : List Char → Option Nat
  | [] => none
  | c :: rest =>
    if escapes && c == '\\' then
      match rest with
      | [] => none
      | _ :: after => (closing? quote escapes after).map (· + 2)
    else if c == quote then
      match rest with
      | [] => some 1
      | next :: after =>
        if next == quote then (closing? quote escapes after).map (· + 2) else some 1
    else (closing? quote escapes rest).map (· + 1)

/-- Length of the quoted run at the head of a text that starts with its opening
quote; `none` if the run is never closed. -/
def length? (quote : Char) (escapes : Bool) (text : List Char) : Option Nat :=
  (closing? quote escapes text.tail).map (· + 1)

theorem closing?_pos {quote : Char} {escapes : Bool} {text : List Char} {n : Nat}
    (h : closing? quote escapes text = some n) : 0 < n := by
  unfold closing? at h
  split at h
  · simp at h
  · split at h
    · split at h
      · simp at h
      · obtain ⟨m, _, rfl⟩ := Option.map_eq_some_iff.1 h
        omega
    · split at h
      · split at h
        · simp only [Option.some.injEq] at h
          omega
        · split at h
          · obtain ⟨m, _, rfl⟩ := Option.map_eq_some_iff.1 h
            omega
          · simp only [Option.some.injEq] at h
            omega
      · obtain ⟨m, _, rfl⟩ := Option.map_eq_some_iff.1 h
        omega

theorem length?_pos {quote : Char} {escapes : Bool} {text : List Char} {n : Nat}
    (h : length? quote escapes text = some n) : 1 < n := by
  obtain ⟨m, hm, rfl⟩ := Option.map_eq_some_iff.1 h
  have := closing?_pos hm
  omega

end SqlTemplate.Quoted
