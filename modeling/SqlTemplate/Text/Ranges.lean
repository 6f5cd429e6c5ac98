/-!
# Ranges of code points

A property of characters is given as a table of closed ranges in increasing
order.  `covers` looks a code point up, and `exists_range_of_covers` says that
a hit comes from one of the ranges of the table.
-/

namespace SqlTemplate.Text

/-- Closed ranges of code points, in increasing order. -/
abbrev Ranges := List (Nat × Nat)

/-- Whether a code point lies in one of the ranges.  The search ends at the
first range that starts above it. -/
def Ranges.covers : Ranges → Nat → Bool
  | [], _ => false
  | (low, high) :: rest, n =>
    if n < low then false else if n ≤ high then true else Ranges.covers rest n

theorem Ranges.exists_range_of_covers {table : Ranges} {n : Nat} (h : table.covers n = true) :
    ∃ range ∈ table, range.1 ≤ n ∧ n ≤ range.2 := by
  induction table with
  | nil => simp [Ranges.covers] at h
  | cons range rest ih =>
    obtain ⟨low, high⟩ := range
    rw [Ranges.covers] at h
    by_cases hLow : n < low
    · simp [hLow] at h
    · by_cases hHigh : n ≤ high
      · exact ⟨(low, high), by simp, by omega, hHigh⟩
      · simp only [hLow, hHigh, if_false] at h
        obtain ⟨range, hMem, hRange⟩ := ih h
        exact ⟨range, List.mem_cons_of_mem _ hMem, hRange⟩

end SqlTemplate.Text
