import SqlTemplate.Proofs.Coverage

/-!
# Texts as bytes

A reader that works on bytes tests them for ASCII characters and cuts texts at byte offsets.
Neither is the same as working on characters: a byte may belong to a character of several bytes,
and a cut may fall outside the text or inside a character.

* `Text.bytes`, `Text.byteAt`: the UTF-8 form of a text.  What only ASCII characters pass, no byte
  of another character passes (`Text.byteRun_bytes`, `Text.all_bytes`).
* `Text.slice?`: the part of a text between two offsets, where there is one.
-/

namespace SqlTemplate.Text

/-- Nothing but ASCII characters passes the test. -/
def AsciiOnly (p : Char → Bool) : Prop := ∀ c, p c = true → c.toNat < 0x80

/-- The UTF-8 form of a text. -/
def bytes (text : List Char) : List UInt8 := text.flatMap String.utf8EncodeChar

/-- The byte at an offset, as the character with its number. -/
def byteAt (text : List Char) (n : Nat) : Option Char := (bytes text)[n]?.map Char.ofUInt8

/-- Number of bytes at the head that pass the test. -/
def byteRun (p : Char → Bool) (bs : List UInt8) : Nat :=
  (bs.takeWhile fun b => p (Char.ofUInt8 b)).length

/-! ### Characters of one byte and of several -/

theorem utf8Size_of_ascii {c : Char} (h : c.toNat < 0x80) : c.utf8Size = 1 := by
  rw [Char.utf8Size_eq_one_iff, UInt32.le_iff_toNat_le]
  exact Nat.le_of_lt_succ h

theorem utf8EncodeChar_of_ascii {c : Char} (h : c.toNat < 0x80) :
    String.utf8EncodeChar c = [c.toUInt8] :=
  String.utf8EncodeChar_eq_singleton (utf8Size_of_ascii h)

theorem toNat_ofUInt8 (b : UInt8) : (Char.ofUInt8 b).toNat = b.toNat := UInt8.toNat_toUInt32 b

theorem ofUInt8_toUInt8 {c : Char} (h : c.toNat < 0x80) : Char.ofUInt8 c.toUInt8 = c := by
  rw [← Char.toNat_inj, toNat_ofUInt8]
  show c.val.toUInt8.toNat = c.val.toNat
  rw [UInt32.toNat_toUInt8]
  exact Nat.mod_eq_of_lt (Nat.lt_of_lt_of_le h (by decide))

/-- All bytes of a character beyond ASCII are beyond ASCII. -/
theorem le_of_mem_utf8EncodeChar {c : Char} (h : ¬c.toNat < 0x80) :
    ∀ b ∈ String.utf8EncodeChar c, ¬(Char.ofUInt8 b).toNat < 0x80 := by
  intro b hb
  rw [toNat_ofUInt8]
  have hc : ¬c.val.toNat ≤ 127 := fun hle => h (Nat.lt_succ_of_le hle)
  -- two, three or four bytes, each with its highest bit set
  simp only [String.utf8EncodeChar, hc, if_false] at hb
  split at hb
  · simp only [List.mem_cons, List.not_mem_nil, or_false] at hb
    rcases hb with rfl | rfl <;> rw [UInt8.toNat_ofNat'] <;> omega
  · split at hb
    · simp only [List.mem_cons, List.not_mem_nil, or_false] at hb
      rcases hb with rfl | rfl | rfl <;> rw [UInt8.toNat_ofNat'] <;> omega
    · simp only [List.mem_cons, List.not_mem_nil, or_false] at hb
      rcases hb with rfl | rfl | rfl | rfl <;> rw [UInt8.toNat_ofNat'] <;> omega

/-! ### The bytes of a text -/

@[simp] theorem bytes_nil : bytes [] = [] := rfl

theorem bytes_cons (c : Char) (rest : List Char) :
    bytes (c :: rest) = String.utf8EncodeChar c ++ bytes rest := rfl

@[simp] theorem bytes_append (s t : List Char) : bytes (s ++ t) = bytes s ++ bytes t :=
  List.flatMap_append

@[simp] theorem length_bytes (text : List Char) : (bytes text).length = byteLength text := by
  induction text with
  | nil => rfl
  | cons c rest ih =>
    rw [bytes_cons, List.length_append, String.length_utf8EncodeChar, ih, byteLength_cons]

/-- A text of ASCII characters has as many bytes as characters. -/
theorem byteLength_of_ascii {text : List Char} (h : ∀ c ∈ text, c.toNat < 0x80) :
    byteLength text = text.length := by
  induction text with
  | nil => rfl
  | cons c rest ih =>
    have hc := utf8Size_of_ascii (h c List.mem_cons_self)
    have hRest := ih fun a ha => h a (List.mem_cons_of_mem c ha)
    rw [byteLength_cons, hc, hRest, List.length_cons, Nat.add_comm]

section Ascii

variable {p : Char → Bool} (hp : AsciiOnly p)

include hp

/-- No byte of a character beyond ASCII passes. -/
theorem AsciiOnly.byte_fails {c : Char} (h : ¬c.toNat < 0x80) :
    ∀ b ∈ String.utf8EncodeChar c, p (Char.ofUInt8 b) = false :=
  fun b hb => Bool.eq_false_iff.2 fun hPass => le_of_mem_utf8EncodeChar h b hb (hp _ hPass)

theorem AsciiOnly.char_fails {c : Char} (h : ¬c.toNat < 0x80) : p c = false :=
  Bool.eq_false_iff.2 fun hPass => h (hp c hPass)

/-- **Runs of bytes are runs of characters.** -/
theorem byteRun_bytes (text : List Char) :
    byteRun p (bytes text) = (text.takeWhile p).length := by
  induction text with
  | nil => rfl
  | cons c rest ih =>
    by_cases hAscii : c.toNat < 0x80
    · have hBytes : bytes (c :: rest) = c.toUInt8 :: bytes rest := by
        rw [bytes_cons, utf8EncodeChar_of_ascii hAscii, List.singleton_append]
      rw [byteRun, hBytes, List.takeWhile_cons, List.takeWhile_cons, ofUInt8_toUInt8 hAscii]
      split
      · exact congrArg (· + 1) ih
      · rfl
    · obtain ⟨b, more, hMore⟩ := List.exists_cons_of_ne_nil (String.utf8EncodeChar_ne_nil (c := c))
      have hb := hp.byte_fails hAscii b (hMore ▸ List.mem_cons_self)
      rw [byteRun, bytes_cons, hMore, List.cons_append, List.takeWhile_cons, hb,
        List.takeWhile_cons, hp.char_fails hAscii]
      rfl

theorem all_bytes (text : List Char) :
    ((bytes text).all fun b => p (Char.ofUInt8 b)) = text.all p := by
  induction text with
  | nil => rfl
  | cons c rest ih =>
    rw [bytes_cons, List.all_append, ih, List.all_cons]
    by_cases hAscii : c.toNat < 0x80
    · rw [utf8EncodeChar_of_ascii hAscii, List.all_cons, List.all_nil, Bool.and_true,
        ofUInt8_toUInt8 hAscii]
    · obtain ⟨b, more, hMore⟩ := List.exists_cons_of_ne_nil (String.utf8EncodeChar_ne_nil (c := c))
      have hb := hp.byte_fails hAscii b (hMore ▸ List.mem_cons_self)
      rw [hMore, List.all_cons, hb, hp.char_fails hAscii, Bool.false_and]

/-- The first byte passes if the first character does. -/
theorem any_byteAt_zero (text : List Char) : (byteAt text 0).any p = text.head?.any p := by
  cases text with
  | nil => rfl
  | cons c rest =>
    rw [byteAt, bytes_cons, List.head?_cons, Option.any_some]
    by_cases hAscii : c.toNat < 0x80
    · rw [utf8EncodeChar_of_ascii hAscii, List.singleton_append, List.getElem?_cons_zero,
        Option.map_some, Option.any_some, ofUInt8_toUInt8 hAscii]
    · obtain ⟨b, more, hMore⟩ := List.exists_cons_of_ne_nil (String.utf8EncodeChar_ne_nil (c := c))
      have hb := hp.byte_fails hAscii b (hMore ▸ List.mem_cons_self)
      rw [hMore, List.cons_append, List.getElem?_cons_zero, Option.map_some, Option.any_some, hb,
        hp.char_fails hAscii]

end Ascii

/-- Behind a text, bytes are those of the text after it. -/
theorem byteAt_append (s t : List Char) (n : Nat) :
    byteAt (s ++ t) (byteLength s + n) = byteAt t n := by
  rw [byteAt, bytes_append, List.getElem?_append_right (by rw [length_bytes]; omega), length_bytes,
    Nat.add_sub_cancel_left, byteAt]

/-! ### Slices -/

instance (text : List Char) (n : Nat) : Decidable (IsBoundary text n) :=
  inferInstanceAs (Decidable (String.Pos.Raw.IsValid _ _))

/-- The part of the text between two offsets; there is none if one of them is out of range or
inside a character. -/
def slice? (start stop : Nat) (text : List Char) : Option (List Char) :=
  if start ≤ stop ∧ IsBoundary text start ∧ IsBoundary text stop then some (slice start stop text)
  else none

/-- The text from an offset on. -/
def sliceFrom? (start : Nat) (text : List Char) : Option (List Char) :=
  slice? start (byteLength text) text

/-- The bytes from an offset on. -/
def bytesFrom? (start : Nat) (text : List Char) : Option (List UInt8) :=
  if start ≤ (bytes text).length then some ((bytes text).drop start) else none

theorem slice?_append (before text after : List Char) :
    slice? (byteLength before) (byteLength before + byteLength text) (before ++ (text ++ after)) =
      some text := by
  have hStop : IsBoundary (before ++ (text ++ after)) (byteLength before + byteLength text) := by
    rw [← byteLength_append, ← List.append_assoc]
    exact isBoundary_append _ _
  rw [slice?, if_pos ⟨Nat.le_add_right _ _, isBoundary_append _ _, hStop⟩, slice_append]

theorem sliceFrom?_append (before text : List Char) :
    sliceFrom? (byteLength before) (before ++ text) = some text := by
  have hSlice := slice?_append before text []
  rw [List.append_nil] at hSlice
  rw [sliceFrom?, byteLength_append]
  exact hSlice

theorem sliceFrom?_take (n : Nat) (text : List Char) :
    sliceFrom? (byteLength (text.take n)) text = some (text.drop n) := by
  have hFrom := sliceFrom?_append (text.take n) (text.drop n)
  rwa [List.take_append_drop] at hFrom

theorem bytesFrom?_append (before text : List Char) :
    bytesFrom? (byteLength before) (before ++ text) = some (bytes text) := by
  rw [bytesFrom?, bytes_append, ← length_bytes, List.drop_left, if_pos]
  rw [List.length_append]
  exact Nat.le_add_right _ _

end SqlTemplate.Text
