import Mathlib.Logic.Function.Basic
import SqlTemplate.Dialect.Error
import SqlTemplate.Proofs.OverridesText

/-!
# Which objects are overrides

An object is read as a record of overrides member by member, and the first member that does not
fit ends the reading.  What fits is said here of the members as a whole:

* `Overrides.Accepted`: every key names an option, no two keys name the same one, and every
  value is one that its option takes.
* `Overrides.Holds`: the record sets what the members hold, and nothing for `null`.
* `Overrides.Offends`: why a member does not fit after others that do.
* `Overrides.Answers`: what reading has to come to, a record or the first member that does not
  fit.

Between two members the reader knows the options it has seen and the record so far
(`Overrides.ReadTo`).  `Overrides.read_cases` says what one more value does, and
`Overrides.readMembers_answers` goes through the members.  The main statement is
`Overrides.parseObject_iff`.
-/

namespace SqlTemplate

open Json (Symbol Value)
open Json.Value (memberSymbols)

namespace Json.Value

/-- The symbol with which a value starts. -/
def firstSymbol : Value → Symbol
  | .null => .null
  | .bool b => .bool b
  | .number n => .number n
  | .text s => .text s
  | .illegible => .loneSurrogate
  | .array _ => .openArray
  | .object _ => .openObject

theorem exists_toSymbols (v : Value) : ∃ more, v.toSymbols = v.firstSymbol :: more := by
  cases v <;> exact ⟨_, rfl⟩

end Json.Value

namespace OptionName

variable {name other : OptionName} {key : String}

/-- What an option takes for a value; `null` leaves it unset. -/
def Takes : OptionName → Value → Prop
  | _, .null => True
  | .switch _, .bool _ => True
  | .text _, .text _ => True
  | _, _ => False

/-- What the value of an option is expected to be. -/
def expected : OptionName → Expected
  | .switch _ => .boolean
  | .text _ => .text

theorem ofKey?_of_mem (h : key ∈ name.spellings) : ofKey? key = some name := by
  have hFacts : ∀ n ∈ all, ∀ k ∈ n.spellings, ofKey? k = some n := by decide +kernel
  exact hFacts name name.mem_all key h

/-- An option is found under its spellings. -/
theorem ofKey?_eq_some_iff : ofKey? key = some name ↔ key ∈ name.spellings := by
  refine ⟨fun h => ?_, ofKey?_of_mem⟩
  simpa using List.find?_some h

theorem ofKey?_eq_none_iff : ofKey? key = none ↔ ∀ name : OptionName, key ∉ name.spellings := by
  rw [Option.eq_none_iff_forall_ne_some]
  exact forall_congr' fun name => not_congr ofKey?_eq_some_iff

/-- A key names one option at most. -/
theorem eq_of_mem_spellings (h : key ∈ name.spellings) (hOther : key ∈ other.spellings) :
    other = name :=
  Option.some.inj ((ofKey?_of_mem hOther).symm.trans (ofKey?_of_mem h))

end OptionName

namespace Overrides

/-- Members that make up a record. -/
structure Accepted (members : List (String × Value)) : Prop where
  /-- Every key names an option. -/
  known : ∀ m ∈ members, ∃ name : OptionName, m.1 ∈ name.spellings
  /-- No two keys name the same option. -/
  apart : members.Pairwise fun m n =>
    ∀ name : OptionName, m.1 ∈ name.spellings → n.1 ∉ name.spellings
  /-- Every value is one that its option takes. -/
  taken : ∀ m ∈ members, ∀ name : OptionName, m.1 ∈ name.spellings → name.Takes m.2

/-- The record sets an option to the value that a member holds for it, unless that is `null`. -/
def Holds (members : List (String × Value)) (o : Overrides) : Prop :=
  ∀ name v, o.value? name = some v ↔ v ≠ .null ∧ ∃ key ∈ name.spellings, (key, v) ∈ members

/-- What is wrong with a member after earlier ones.  The key is looked at before the value, so
that a repeated option is found before a value of the wrong type.  A number beyond all doubles
and a string that stands for no text cannot be named in a message. -/
inductive Offends (earlier : List (String × Value)) : String × Value → OverridesFault → Prop
  | unknownKey {key : String} {v : Value} (hKey : ∀ name : OptionName, key ∉ name.spellings) :
      Offends earlier (key, v) (.unknownKey key)
  | repeated {key : String} {v : Value} {name : OptionName} {m : String × Value}
      (hKey : key ∈ name.spellings) (hEarlier : m ∈ earlier) (hSame : m.1 ∈ name.spellings) :
      Offends earlier (key, v) (.repeated name)
  | wrongType {key : String} {v : Value} {name : OptionName} {found : String}
      (hKey : key ∈ name.spellings) (hNew : ∀ m ∈ earlier, m.1 ∉ name.spellings)
      (hType : ¬name.Takes v) (hFound : describe? v.firstSymbol = some found) :
      Offends earlier (key, v) (.wrongType found name.expected)
  | nameless {key : String} {v : Value} {name : OptionName}
      (hKey : key ∈ name.spellings) (hNew : ∀ m ∈ earlier, m.1 ∉ name.spellings)
      (hType : ¬name.Takes v)
      (hFound : v = .illegible ∨ ∃ n : Json.Numeral, v = .number n ∧ n.describe? = none) :
      Offends earlier (key, v) .malformed

/-- What reading the members has to come to. -/
def Answers (members : List (String × Value)) : Except OverridesFault Overrides → Prop
  | .ok o => Accepted members ∧ Holds members o
  | .error fault => ∃ before m after,
      members = before ++ m :: after ∧ Accepted before ∧ Offends before m fault

/-- What the reader knows after some of the members. -/
structure ReadTo (before : List (String × Value)) (seen : List OptionName) (o : Overrides) :
    Prop where
  accepted : Accepted before
  holds : Holds before o
  mem_seen : ∀ name, name ∈ seen ↔ ∃ m ∈ before, m.1 ∈ name.spellings

variable {o p : Overrides} {name : OptionName} {key : String} {v : Value}
  {before members : List (String × Value)} {seen : List OptionName}

/-! ### Members that fit -/

theorem Accepted.nil : Accepted [] := by
  refine ⟨?_, .nil, ?_⟩ <;> exact fun m hm => absurd hm List.not_mem_nil

/-- One more member that fits. -/
theorem Accepted.concat (h : Accepted before) (hKey : key ∈ name.spellings)
    (hNew : ∀ m ∈ before, m.1 ∉ name.spellings) (hTakes : name.Takes v) :
    Accepted (before ++ [(key, v)]) where
  known := by
    rw [List.forall_mem_append, List.forall_mem_singleton]
    exact ⟨h.known, name, hKey⟩
  apart := by
    rw [List.pairwise_append]
    refine ⟨h.apart, List.pairwise_singleton _ _, ?_⟩
    intro m hm n hn other hOther hSame
    rw [List.mem_singleton.1 hn] at hSame
    rw [OptionName.eq_of_mem_spellings hKey hSame] at hOther
    exact hNew m hm hOther
  taken := by
    rw [List.forall_mem_append, List.forall_mem_singleton]
    refine ⟨h.taken, fun other hOther => ?_⟩
    rw [OptionName.eq_of_mem_spellings hKey hOther]
    exact hTakes

theorem Accepted.perm {others : List (String × Value)} (h : Accepted members)
    (hPerm : members.Perm others) : Accepted others where
  known := fun m hm => h.known m (hPerm.mem_iff.2 hm)
  apart := (hPerm.pairwise_iff fun hApart name hm hn => hApart name hn hm).1 h.apart
  taken := fun m hm => h.taken m (hPerm.mem_iff.2 hm)

/-- None of the members that fit offends. -/
theorem Accepted.not_offends {m : String × Value} {after : List (String × Value)}
    {fault : OverridesFault} (h : Accepted (before ++ m :: after)) : ¬Offends before m fault := by
  have hMem : m ∈ before ++ m :: after := List.mem_append_right _ List.mem_cons_self
  intro hOffends
  cases hOffends with
  | unknownKey hKey =>
    obtain ⟨name, hName⟩ := h.known _ hMem
    exact hKey name hName
  | repeated hKey hEarlier hSame =>
    exact (List.pairwise_append.1 h.apart).2.2 _ hEarlier _ List.mem_cons_self _ hSame hKey
  | wrongType hKey _ hType _ => exact hType (h.taken _ hMem _ hKey)
  | nameless hKey _ hType _ => exact hType (h.taken _ hMem _ hKey)

/-! ### Records that hold them -/

theorem value?_setSwitch (o : Overrides) (s : Switch) (b : Bool) :
    (o.setSwitch s b).value? = Function.update o.value? (.switch s) (some (.bool b)) := by
  funext name
  rw [Function.update_apply]
  cases name with
  | switch t => by_cases h : t = s <;> simp [value?, setSwitch, h]
  | text t => simp [value?, setSwitch]

theorem value?_setText (o : Overrides) (t : TextOption) (value : String) :
    (o.setText t value).value? = Function.update o.value? (.text t) (some (.text value)) := by
  funext name
  rw [Function.update_apply]
  cases name with
  | switch s => simp [value?, setText]
  | text u => by_cases h : u = t <;> simp [value?, setText, h]

theorem eq_of_value? (h : ∀ name, o.value? name = p.value? name) : o = p := by
  apply Overrides.ext
  · intro s
    exact Option.map_injective (fun _ _ => Value.bool.inj) (h (.switch s))
  · intro t
    exact Option.map_injective (fun _ _ => Value.text.inj) (h (.text t))

/-- The members say what the record is. -/
theorem Holds.unique (h : Holds members o) (hOther : Holds members p) : o = p := by
  apply eq_of_value?
  intro name
  apply Option.ext
  intro v
  rw [h name v, hOther name v]

/-- Their order makes no difference. -/
theorem Holds.perm {others : List (String × Value)} (h : Holds members o)
    (hPerm : members.Perm others) : Holds others o := by
  intro name v
  rw [h name v]
  simp only [hPerm.mem_iff]

theorem Holds.concat_null (h : Holds before o) (key : String) :
    Holds (before ++ [(key, .null)]) o := by
  intro name v
  rw [h name v]
  refine and_congr_right fun hNull => exists_congr fun k => and_congr_right fun _ => ?_
  simp [hNull]

/-- One more member with a value to set. -/
theorem Holds.concat (h : Holds before o) (hKey : key ∈ name.spellings)
    (hNew : ∀ m ∈ before, m.1 ∉ name.spellings) (hNull : v ≠ .null)
    (hValue : p.value? = Function.update o.value? name (some v)) :
    Holds (before ++ [(key, v)]) p := by
  intro other w
  simp only [hValue, Function.update_apply, List.mem_append, List.mem_singleton, Prod.mk.injEq]
  split
  · next hOther =>
    subst hOther
    rw [Option.some.injEq]
    constructor
    · rintro rfl
      exact ⟨hNull, key, hKey, Or.inr ⟨rfl, rfl⟩⟩
    · rintro ⟨-, k, hk, hEarlier | ⟨-, rfl⟩⟩
      · exact absurd hk (hNew _ hEarlier)
      · rfl
  · next hOther =>
    rw [h other w]
    refine and_congr_right fun _ => exists_congr fun k => and_congr_right fun hk => ?_
    refine ⟨Or.inl, fun hMem => hMem.resolve_right ?_⟩
    rintro ⟨rfl, -⟩
    exact hOther (OptionName.eq_of_mem_spellings hKey hk)

/-! ### Reading member by member -/

/-- **What one value does**: a value that the option takes is one symbol and is set, and any
other ends the reading at its first symbol. -/
theorem read_cases (o : Overrides) (name : OptionName) (v : Value) :
    (¬name.Takes v ∧
        o.read name v.firstSymbol = .error (mismatch v.firstSymbol name.expected)) ∨
      (name.Takes v ∧ v.toSymbols = [v.firstSymbol] ∧
        ∃ p, o.read name v.firstSymbol = .ok p ∧
          ((v = .null ∧ p = o) ∨
            (v ≠ .null ∧ p.value? = Function.update o.value? name (some v)))) := by
  cases name with
  | switch s =>
    cases v with
    | null => exact Or.inr ⟨trivial, rfl, o, rfl, Or.inl ⟨rfl, rfl⟩⟩
    | bool b =>
      exact Or.inr ⟨trivial, rfl, _, rfl, Or.inr ⟨by simp, value?_setSwitch o s b⟩⟩
    | number | text | illegible | array | object => exact Or.inl ⟨id, rfl⟩
  | text t =>
    cases v with
    | null => exact Or.inr ⟨trivial, rfl, o, rfl, Or.inl ⟨rfl, rfl⟩⟩
    | text value =>
      exact Or.inr ⟨trivial, rfl, _, rfl, Or.inr ⟨by simp, value?_setText o t value⟩⟩
    | bool | number | illegible | array | object => exact Or.inl ⟨id, rfl⟩

theorem describe?_eq_none (h : describe? v.firstSymbol = none) :
    v = .illegible ∨ ∃ n : Json.Numeral, v = .number n ∧ n.describe? = none := by
  cases v with
  | number n => exact Or.inr ⟨n, rfl, h⟩
  | illegible => exact Or.inl rfl
  | null | bool | text | array | object => cases h

/-- The fault of a value that its option does not take. -/
theorem Offends.mismatch (hKey : key ∈ name.spellings)
    (hNew : ∀ m ∈ before, m.1 ∉ name.spellings) (hType : ¬name.Takes v) :
    Offends before (key, v) (mismatch v.firstSymbol name.expected) := by
  rw [Overrides.mismatch]
  split
  · next found hFound => exact .wrongType hKey hNew hType hFound
  · next hFound => exact .nameless hKey hNew hType (describe?_eq_none hFound)

theorem ReadTo.new (h : ReadTo before seen o) (hSeen : name ∉ seen) :
    ∀ m ∈ before, m.1 ∉ name.spellings :=
  fun m hm hSame => hSeen ((h.mem_seen name).2 ⟨m, hm, hSame⟩)

/-- After one more member that fits. -/
theorem ReadTo.concat (h : ReadTo before seen o) (hKey : key ∈ name.spellings)
    (hSeen : name ∉ seen) (hTakes : name.Takes v)
    (hValue : (v = .null ∧ p = o) ∨
      (v ≠ .null ∧ p.value? = Function.update o.value? name (some v))) :
    ReadTo (before ++ [(key, v)]) (name :: seen) p where
  accepted := h.accepted.concat hKey (h.new hSeen) hTakes
  holds := by
    rcases hValue with ⟨rfl, rfl⟩ | ⟨hNull, hUpdate⟩
    · exact h.holds.concat_null key
    · exact h.holds.concat hKey (h.new hSeen) hNull hUpdate
  mem_seen := by
    intro other
    rw [List.mem_cons, h.mem_seen]
    constructor
    · rintro (rfl | ⟨m, hm, hSame⟩)
      · exact ⟨(key, v), by simp, hKey⟩
      · exact ⟨m, List.mem_append_left _ hm, hSame⟩
    · rintro ⟨m, hm, hSame⟩
      rcases List.mem_append.1 hm with hm | hm
      · exact Or.inr ⟨m, hm, hSame⟩
      · rw [List.mem_singleton.1 hm] at hSame
        exact Or.inl (OptionName.eq_of_mem_spellings hKey hSame)

theorem exists_memberSymbols (key : String) (v : Value) (rest : List (String × Value)) :
    ∃ more, memberSymbols ((key, v) :: rest) ++ [.closeObject] =
      .text key :: .colon :: v.firstSymbol :: more := by
  obtain ⟨more, hMore⟩ := v.exists_toSymbols
  cases rest with
  | nil => exact ⟨more ++ [.closeObject], by simp [memberSymbols, hMore]⟩
  | cons m rest => exact ⟨_, by rw [memberSymbols, hMore]; rfl⟩

/-- **Reading goes through the members** up to the first that does not fit.  The induction is on
the members that are left. -/
theorem readMembers_answers (hNil : members ≠ []) (h : ReadTo before seen o) :
    Answers (before ++ members) (o.readMembers seen (memberSymbols members ++ [.closeObject])) := by
  induction members generalizing before seen o with
  | nil => exact absurd rfl hNil
  | cons m rest ih =>
    obtain ⟨key, v⟩ := m
    obtain ⟨more, hMore⟩ := exists_memberSymbols key v rest
    -- an answer that names this member
    have hHere : ∀ {fault}, Offends before (key, v) fault →
        Answers (before ++ (key, v) :: rest) (.error fault) :=
      fun hOffends => ⟨before, (key, v), rest, rfl, h.accepted, hOffends⟩
    cases hName : OptionName.ofKey? key with
    | none =>
      rw [hMore, readMembers, hName]
      exact hHere (.unknownKey (OptionName.ofKey?_eq_none_iff.1 hName))
    | some name =>
      have hKey := OptionName.ofKey?_eq_some_iff.1 hName
      by_cases hSeen : name ∈ seen
      · obtain ⟨m, hm, hSame⟩ := (h.mem_seen name).1 hSeen
        simp only [hMore, readMembers, hName, if_pos hSeen]
        exact hHere (.repeated hKey hm hSame)
      · rcases o.read_cases name v with ⟨hType, hRead⟩ | ⟨hTakes, hSymbol, p, hRead, hValue⟩
        · simp only [hMore, readMembers, hName, if_neg hSeen, hRead]
          exact hHere (.mismatch hKey (h.new hSeen) hType)
        · have hNext := h.concat hKey hSeen hTakes hValue
          cases rest with
          | nil =>
            have hText : memberSymbols [(key, v)] ++ [.closeObject] =
                [.text key, .colon, v.firstSymbol, .closeObject] := by
              simp [memberSymbols, hSymbol]
            rw [hText, readMembers_closeObject hName hSeen hRead]
            exact ⟨hNext.accepted, hNext.holds⟩
          | cons m rest =>
            have hText : memberSymbols ((key, v) :: m :: rest) ++ [.closeObject] =
                .text key :: .colon :: v.firstSymbol :: .comma ::
                  (memberSymbols (m :: rest) ++ [.closeObject]) := by
              simp [memberSymbols, hSymbol]
            have hRest := ih (List.cons_ne_nil m rest) hNext
            rw [List.append_assoc, List.singleton_append] at hRest
            rw [hText, readMembers_comma hName hSeen hRead]
            exact hRest

/-! ### Reading an object -/

/-- Reads the text of an object with these members. -/
def parseObject (members : List (String × Value)) : Except OverridesFault Overrides :=
  parse (String.ofList (Value.object members).render)

theorem readTo_nil : ReadTo [] [] empty where
  accepted := .nil
  holds := by
    intro name v
    cases name <;> simp [value?, empty]
  mem_seen := by simp

theorem parseObject_answers (hValues : ∀ m ∈ members, m.2.WellFormed) :
    Answers members (parseObject members) := by
  rw [parseObject, parse_of_symbols (Value.wellFormed_object hValues), Value.toSymbols]
  cases members with
  | nil => exact ⟨readTo_nil.accepted, readTo_nil.holds⟩
  | cons m rest =>
    obtain ⟨key, v⟩ := m
    have hRead := readMembers_answers (List.cons_ne_nil (key, v) rest) readTo_nil
    obtain ⟨more, hMore⟩ := exists_memberSymbols key v rest
    rw [hMore] at hRead
    rw [List.cons_append, hMore]
    exact hRead

/-- Members that fit are read to their end. -/
theorem Accepted.exists_parseObject (h : Accepted members)
    (hValues : ∀ m ∈ members, m.2.WellFormed) :
    ∃ o, parseObject members = .ok o ∧ Holds members o := by
  have hAnswers := parseObject_answers hValues
  cases hRead : parseObject members with
  | ok o =>
    rw [hRead] at hAnswers
    exact ⟨o, rfl, hAnswers.2⟩
  | error fault =>
    rw [hRead] at hAnswers
    obtain ⟨before, m, after, rfl, -, hOffends⟩ := hAnswers
    exact absurd hOffends h.not_offends

theorem parseObject_eq_ok_iff (hValues : ∀ m ∈ members, m.2.WellFormed) :
    parseObject members = .ok o ↔ Accepted members ∧ Holds members o := by
  constructor
  · intro h
    have hAnswers := parseObject_answers hValues
    rwa [h] at hAnswers
  · rintro ⟨hAccepted, hHolds⟩
    obtain ⟨p, hRead, hOther⟩ := hAccepted.exists_parseObject hValues
    rw [hRead, hHolds.unique hOther]

/-- **Which objects are overrides.**  An object is read as a record of overrides exactly if its
keys name options, no two of them the same, and its values are of the types of these options or
`null`.  The record then holds the values of the members, and every order of them is read as the
same record.  Otherwise the error is a configuration error for the first member that does not
fit after the members before it; its message says what is wrong, not where in the text. -/
theorem parseObject_iff (members : List (String × Value))
    (hValues : ∀ m ∈ members, m.2.WellFormed) :
    ((∃ o, parseObject members = .ok o) ↔ Accepted members) ∧
    (∀ o, parseObject members = .ok o → Holds members o ∧
      ∀ others, members.Perm others → parseObject others = .ok o) ∧
    (∀ e, (parseObject members).mapError DialectError.unreadable = .error e →
      ∃ fault before m after, e = .unreadable fault ∧
        e.message = "Configuration error: " ++ fault.message ∧
        members = before ++ m :: after ∧ Accepted before ∧ Offends before m fault) := by
  refine ⟨⟨?_, ?_⟩, ?_, ?_⟩
  · rintro ⟨o, h⟩
    exact ((parseObject_eq_ok_iff hValues).1 h).1
  · intro hAccepted
    obtain ⟨o, h, -⟩ := hAccepted.exists_parseObject hValues
    exact ⟨o, h⟩
  · intro o h
    obtain ⟨hAccepted, hHolds⟩ := (parseObject_eq_ok_iff hValues).1 h
    refine ⟨hHolds, fun others hPerm => ?_⟩
    have hOthers : ∀ m ∈ others, m.2.WellFormed := fun m hm => hValues m (hPerm.mem_iff.2 hm)
    exact (parseObject_eq_ok_iff hOthers).2 ⟨hAccepted.perm hPerm, hHolds.perm hPerm⟩
  · intro e hError
    have hAnswers := parseObject_answers hValues
    cases h : parseObject members with
    | ok o =>
      rw [h] at hError
      cases hError
    | error fault =>
      rw [h] at hError hAnswers
      cases hError
      obtain ⟨before, m, after, hMembers, hAccepted, hOffends⟩ := hAnswers
      exact ⟨fault, before, m, after, rfl, rfl, hMembers, hAccepted, hOffends⟩

/-- The same option under two of its spellings, with a value of the wrong type the second
time. -/
theorem parseObject_iff_repeated :
    let members : List (String × Value) :=
      [("dollarQuoting", .null), ("doubleDollarQuotedStrings", .text "on"), ("types", .null)]
    (∀ m ∈ members, m.2.WellFormed) ∧
      parseObject members = .error (.repeated (.switch .dollarQuotes)) ∧ ¬Accepted members := by
  intro members
  have hValues : ∀ m ∈ members, m.2.WellFormed := by simp [members, Value.WellFormed]
  have hError : parseObject members = .error (.repeated (.switch .dollarQuotes)) := by
    rw [parseObject, parse_of_symbols (Value.wellFormed_object hValues)]
    rfl
  refine ⟨hValues, hError, fun hAccepted => ?_⟩
  obtain ⟨o, ho⟩ := (parseObject_iff members hValues).1.2 hAccepted
  rw [hError] at ho
  cases ho

end Overrides

end SqlTemplate
