import SqlTemplate.Dialect.Overrides
import SqlTemplate.Proofs.Presets

/-!
# Words in upper case

A word is looked up in upper case, so only entries in upper case are ever found.  The upper-case
form of a text is in upper case itself (`Text.upper_upper`): no code point that the mapping gives
is one that the mapping changes.  Most of them come from the runs of `Text.caseRuns`; that their
images miss all runs is decided run against run, by bounds and parity (`Text.CaseRun.misses`), and
not code point by code point.

So the tables of the built-in dialects are in upper case (`Preset.upper_of_mem_keywords`,
`Preset.upper_of_mem_typeNames`), and those that overrides describe (`Text.upper_of_mem_wordTable`).
-/

namespace SqlTemplate

namespace Text

namespace CaseRun

/-- The upper-case form of a code point that the run covers. -/
def image (run : CaseRun) (n : Nat) : Nat := (n + run.shift).toNat

/-- Whether all code points of the run are even or all are odd. -/
def oneParity (run : CaseRun) : Bool := run.first == run.last || run.stride == 2

/-- Whether the image of the run is seen to have no code point of the other run. -/
def misses (run other : CaseRun) : Bool :=
  (run.image run.last).blt other.first || other.last.blt (run.image run.first) ||
    (other.stride == 2 && run.oneParity && (run.image run.first + other.first) % 2 == 1)

/-- Whether the image of the run is seen to have none of the code points. -/
def avoids (run : CaseRun) (codes : List Nat) : Bool :=
  codes.all fun n => (run.image run.last).blt n || n.blt (run.image run.first)

/-- Whether the run maps characters to characters, and to none in ASCII but a capital. -/
def proper (run : CaseRun) : Bool :=
  0 ≤ run.first + run.shift &&
    (run.image run.last < 0xD800 ||
      (0xDFFF < run.image run.first && run.image run.last < 0x110000)) &&
    (0x80 ≤ run.image run.first ||
      (run.first == run.last &&
        (Char.ofNat (run.image run.first)).toUpper == Char.ofNat (run.image run.first)))

variable {run other : CaseRun} {n : Nat}

theorem covers_iff :
    run.covers n = true ↔ run.first ≤ n ∧ n ≤ run.last ∧ (n - run.first) % run.stride = 0 := by
  simp [covers, and_assoc]

theorem image_bounds (h : run.covers n = true) :
    run.image run.first ≤ run.image n ∧ run.image n ≤ run.image run.last := by
  obtain ⟨hFirst, hLast, -⟩ := covers_iff.1 h
  unfold image
  omega

theorem image_parity (hProper : run.proper = true) (hParity : run.oneParity = true)
    (h : run.covers n = true) : run.image n % 2 = run.image run.first % 2 := by
  obtain ⟨hFirst, hLast, hStride⟩ := covers_iff.1 h
  simp only [proper, Bool.and_eq_true, decide_eq_true_eq] at hProper
  have hPos := hProper.1.1
  rw [oneParity, Bool.or_eq_true, beq_iff_eq, beq_iff_eq] at hParity
  unfold image
  rcases hParity with hSingle | hTwo
  · omega
  · rw [hTwo] at hStride
    omega

/-- **The test is right.** -/
theorem not_covers_of_misses (hProper : run.proper = true) (hMisses : run.misses other = true)
    (h : run.covers n = true) : other.covers (run.image n) = false := by
  obtain ⟨hLow, hHigh⟩ := image_bounds h
  rw [← Bool.not_eq_true, covers_iff]
  rintro ⟨hFirst, hLast, hStride⟩
  simp only [misses, Bool.or_eq_true, Bool.and_eq_true, Nat.blt_eq, beq_iff_eq] at hMisses
  rcases hMisses with (hBelow | hAbove) | ⟨⟨hTwo, hParity⟩, hOdd⟩
  · omega
  · omega
  · have hSame := image_parity hProper hParity h
    rw [hTwo] at hStride
    omega

theorem not_mem_of_avoids {codes : List Nat} (hAvoids : run.avoids codes = true)
    (h : run.covers n = true) : run.image n ∉ codes := by
  obtain ⟨hLow, hHigh⟩ := image_bounds h
  intro hMem
  have hHere := List.all_eq_true.1 hAvoids _ hMem
  rw [Bool.or_eq_true, Nat.blt_eq, Nat.blt_eq] at hHere
  omega

theorem toNat_image (hProper : run.proper = true) (h : run.covers n = true) :
    (Char.ofNat (run.image n)).toNat = run.image n := by
  obtain ⟨hLow, hHigh⟩ := image_bounds h
  simp only [proper, Bool.and_eq_true, Bool.or_eq_true, decide_eq_true_eq] at hProper
  have hRange := hProper.1.2
  have hValid : (run.image n).isValidChar := by
    unfold Nat.isValidChar
    omega
  rw [Char.ofNat, dif_pos hValid]
  rfl

theorem toUpper_image (hProper : run.proper = true) (h : run.covers n = true)
    (hAscii : run.image n < 0x80) :
    (Char.ofNat (run.image n)).toUpper = Char.ofNat (run.image n) := by
  obtain ⟨hFirst, hLast, -⟩ := covers_iff.1 h
  obtain ⟨hLow, -⟩ := image_bounds h
  simp only [proper, Bool.and_eq_true, Bool.or_eq_true, decide_eq_true_eq, beq_iff_eq] at hProper
  rcases hProper.2 with hBeyond | ⟨hSingle, hUpper⟩
  · omega
  · rw [show n = run.first by omega]
    exact hUpper

end CaseRun

/-! ### One character -/

theorem proper_of_mem_caseRuns : ∀ run ∈ caseRuns, run.proper = true := by
  decide +kernel

theorem misses_of_mem_caseRuns : ∀ run ∈ caseRuns, ∀ other ∈ caseRuns, run.misses other = true := by
  have hAll : (caseRuns.all fun run => caseRuns.all run.misses) = true := by decide +kernel
  intro run hRun other hOther
  exact List.all_eq_true.1 (List.all_eq_true.1 hAll run hRun) other hOther

theorem avoids_of_mem_caseRuns :
    ∀ run ∈ caseRuns, run.avoids (caseExpansions.map Prod.fst) = true := by
  have hAll : (caseRuns.all fun run => run.avoids (caseExpansions.map Prod.fst)) = true := by
    decide +kernel
  exact List.all_eq_true.1 hAll

theorem upperChar_of_mem_caseExpansions : ∀ entry ∈ caseExpansions, ∀ n ∈ entry.2,
    upperChar (Char.ofNat n) = [Char.ofNat n] := by
  decide +kernel

theorem upperChar_image {run : CaseRun} (hRun : run ∈ caseRuns) {n : Nat}
    (h : run.covers n = true) :
    upperChar (Char.ofNat (run.image n)) = [Char.ofNat (run.image n)] := by
  have hProper := proper_of_mem_caseRuns run hRun
  have hCode := CaseRun.toNat_image hProper h
  have hExpansion : caseExpansions.lookup (run.image n) = none := by
    have hAvoids := CaseRun.not_mem_of_avoids (avoids_of_mem_caseRuns run hRun) h
    rw [List.lookup_eq_none_iff]
    intro entry hEntry
    rw [bne_iff_ne]
    intro hSame
    exact hAvoids (List.mem_map.2 ⟨entry, hEntry, hSame.symm⟩)
  have hFound : caseRuns.find? (·.covers (run.image n)) = none := by
    rw [List.find?_eq_none]
    intro other hOther
    rw [CaseRun.not_covers_of_misses hProper (misses_of_mem_caseRuns run hRun other hOther) h]
    exact Bool.false_ne_true
  rw [upperChar, hCode]
  split
  · next hAscii => rw [CaseRun.toUpper_image hProper h hAscii]
  · rw [hExpansion, hFound]

theorem upperChar_toUpper {c : Char} (h : c.toNat < 0x80) : upperChar c.toUpper = [c.toUpper] := by
  have hAll : ∀ n < 0x80, upperChar (Char.ofNat n).toUpper = [(Char.ofNat n).toUpper] := by
    decide +kernel
  rw [← Char.ofNat_toNat c]
  exact hAll c.toNat h

/-- **No character changes twice.** -/
theorem upperChar_of_mem {c x : Char} (h : x ∈ upperChar c) : upperChar x = [x] := by
  have hWhole := h
  rw [upperChar] at h
  split at h
  · next hAscii =>
    rw [List.mem_singleton] at h
    rw [h]
    exact upperChar_toUpper hAscii
  · next hAscii =>
    split at h
    · next codes hLookup =>
      obtain ⟨before, after, hSplit, -⟩ := List.lookup_eq_some_iff.1 hLookup
      obtain ⟨n, hn, rfl⟩ := List.mem_map.1 h
      exact upperChar_of_mem_caseExpansions (c.toNat, codes) (by rw [hSplit]; simp) n hn
    · next hLookup =>
      split at h
      · next run hFind =>
        have hCovers := List.find?_some hFind
        rw [List.mem_singleton] at h
        rw [h]
        exact upperChar_image (List.mem_of_find?_eq_some hFind) hCovers
      · next hFind =>
        rw [List.mem_singleton] at h
        rw [h, upperChar, if_neg hAscii, hLookup, hFind]

/-! ### Texts -/

/-- A text in upper case consists of characters that do not change. -/
theorem upper_eq_self_iff {text : List Char} :
    upper text = text ↔ ∀ c ∈ text, upperChar c = [c] := by
  constructor
  · intro h c hc
    rw [← h] at hc
    obtain ⟨a, -, ha⟩ := List.mem_flatMap.1 hc
    exact upperChar_of_mem ha
  · intro h
    induction text with
    | nil => rfl
    | cons c rest ih =>
      obtain ⟨hc, hRest⟩ := List.forall_mem_cons.1 h
      rw [← List.singleton_append, upper_append, ih hRest, upper, List.flatMap_singleton, hc]

/-- **The upper-case form of a text is in upper case.** -/
theorem upper_upper (text : List Char) : upper (upper text) = upper text := by
  rw [upper_eq_self_iff]
  intro c hc
  obtain ⟨a, -, ha⟩ := List.mem_flatMap.1 hc
  exact upperChar_of_mem ha

theorem upper_of_mem_wordTable {text : List Char} {w : Word} (h : w ∈ wordTable text) :
    upper w = w := by
  rw [wordTable, List.mem_eraseDups] at h
  obtain ⟨v, -, rfl⟩ := List.mem_map.1 h
  exact upper_upper v

end Text

/-! ### The built-in dialects -/

namespace Vocabulary

set_option maxRecDepth 4000 in
theorem upper_of_mem_tables : ∀ table ∈ tables, ∀ w ∈ table, Text.upper w = w := by
  simp only [tables, List.forall_mem_cons, List.not_mem_nil, false_imp_iff, implies_true, and_true]
  refine ⟨?_, ?_, ?_, ?_, ?_, ?_, ?_, ?_⟩
  all_goals
    repeat refine forall_name_cons rfl ?_
    exact List.forall_mem_nil _

end Vocabulary

theorem Preset.upper_of_mem (p : Preset) :
    ∀ w ∈ p.rules.keywords ++ p.rules.typeNames, Text.upper w = w := by
  intro w hw
  obtain ⟨table, hTable, hMem⟩ := p.exists_table w hw
  exact Vocabulary.upper_of_mem_tables table hTable w hMem

/-- **Overrides put nothing into the tables that is not in upper case.** -/
theorem Overrides.upper_of_mem_apply {d : Dialect}
    (h : ∀ w ∈ d.keywords ++ d.typeNames, Text.upper w = w) (o : Overrides) :
    ∀ w ∈ (o.apply d).keywords ++ (o.apply d).typeNames, Text.upper w = w := by
  have hWords : ∀ (t : TextOption) (current : List Word), (∀ w ∈ current, Text.upper w = w) →
      ∀ w ∈ o.words t current, Text.upper w = w := by
    intro t current hCurrent w hw
    unfold words at hw
    split at hw
    · exact Text.upper_of_mem_wordTable hw
    · exact hCurrent w hw
  rw [List.forall_mem_append] at h ⊢
  exact ⟨hWords .keywords d.keywords h.1, hWords .typeNames d.typeNames h.2⟩

end SqlTemplate
