import SqlTemplate.Diagnostic
import SqlTemplate.Token

/-!
# Lexemes

A lexeme is a piece of source text with a verdict: it is accepted as a token of
some kind or rejected for a fault.

A `Match` is what a recogniser finds at the head of a text: how many characters
the lexeme takes, and the verdict on it.  Recognisers are tried one after the
other (`Recogniser.firstOf`), and every one of them makes progress, that is,
takes at least one character if it takes any.
-/

namespace SqlTemplate

inductive Verdict where
  | accept (kind : TokenKind)
  | reject (fault : Fault)
deriving DecidableEq, Repr

/-- The kind of the token; a rejected text gives an error token. -/
def Verdict.kind : Verdict → TokenKind
  | accept kind => kind
  | reject _ => .error

theorem Verdict.kind_eq_iff {v : Verdict} {kind : TokenKind} (h : kind ≠ .error) :
    v.kind = kind ↔ v = .accept kind := by
  cases v with
  | accept found => simp [Verdict.kind]
  | reject fault => simpa [Verdict.kind] using h.symm

structure Lexeme where
  text : List Char
  verdict : Verdict
deriving DecidableEq, Repr

def Lexeme.kind (x : Lexeme) : TokenKind := x.verdict.kind

structure Match where
  length : Nat
  verdict : Verdict
deriving DecidableEq, Repr

namespace Match

def accept (kind : TokenKind) (length : Nat) : Match := ⟨length, .accept kind⟩

def reject (fault : Fault) (length : Nat) : Match := ⟨length, .reject fault⟩

def kind (m : Match) : TokenKind := m.verdict.kind

/-- The lexeme that the match takes from the head of a text. -/
def lexeme (m : Match) (text : List Char) : Lexeme := ⟨text.take m.length, m.verdict⟩

@[simp] theorem accept_length (kind : TokenKind) (n : Nat) : (accept kind n).length = n := rfl

@[simp] theorem reject_length (fault : Fault) (n : Nat) : (reject fault n).length = n := rfl

@[simp] theorem accept_verdict (kind : TokenKind) (n : Nat) :
    (accept kind n).verdict = .accept kind := rfl

@[simp] theorem reject_verdict (fault : Fault) (n : Nat) :
    (reject fault n).verdict = .reject fault := rfl

/-- Nothing is lost between a lexeme and the text after it. -/
theorem lexeme_text_append (m : Match) (text : List Char) :
    (m.lexeme text).text ++ text.drop m.length = text :=
  List.take_append_drop _ _

/-- Length in bytes of what the match takes from the head of a text. -/
def byteLength (m : Match) (text : List Char) : Nat := Text.byteLength (text.take m.length)

end Match

/-- Looks for one form of lexeme at the head of a text. -/
abbrev Recogniser := List Char → Option Match

namespace Recogniser

/-- What the first of the recognisers finds that finds anything. -/
def firstOf (forms : List Recogniser) : Recogniser := fun text => forms.findSome? (· text)

/-- Nothing is recognised without taking a character. -/
def Progress (r : Recogniser) : Prop := ∀ text m, r text = some m → 0 < m.length

theorem firstOf_progress {forms : List Recogniser} (h : ∀ r ∈ forms, Progress r) :
    Progress (firstOf forms) := by
  intro text m hm
  obtain ⟨r, hMem, hr⟩ := List.exists_of_findSome?_eq_some hm
  exact h r hMem text m hr

end Recogniser

end SqlTemplate
