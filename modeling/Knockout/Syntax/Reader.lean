import Knockout.Syntax.Fault
import Knockout.Text.Numeral

/-!
# Readers

A reader takes tokens from the front of a stream. It always gives a value; whatever does not fit is
recorded as a fault and skipped. What it leaves is a suffix of what it was given
(`Reader.rest_suffix`), so readers never go back, and repeating one that has taken a token ends.
-/

namespace Knockout

/-- What reading some tokens gives. -/
structure Outcome (α : Type) where
  value : α
  /-- The faults met on the way, in order. -/
  faults : List SyntaxFault
  /-- The tokens not read. -/
  rest : List Token

/-- A way to read tokens from the front of a stream. -/
structure Reader (α : Type) where
  run : List Token → Outcome α
  /-- A reader leaves the tail of what it was given. -/
  rest_suffix : ∀ tokens, (run tokens).rest <:+ tokens

namespace Reader

/-- Reads nothing. -/
def done (a : α) : Reader α where
  run tokens := ⟨a, [], tokens⟩
  rest_suffix tokens := List.suffix_refl tokens

/-- One reader after another; the faults of the first come first. -/
def andThen (p : Reader α) (f : α → Reader β) : Reader β where
  run tokens :=
    let first := p.run tokens
    let second := (f first.value).run first.rest
    ⟨second.value, first.faults ++ second.faults, second.rest⟩
  rest_suffix tokens :=
    ((f (p.run tokens).value).rest_suffix _).trans (p.rest_suffix tokens)

instance : Monad Reader where
  pure := done
  bind := andThen

/-- Records a fault. -/
def report (fault : SyntaxFault) : Reader Unit where
  run tokens := ⟨(), [fault], tokens⟩
  rest_suffix tokens := List.suffix_refl tokens

/-- Takes a token of a kind. Any other token is a fault and is taken all the same. -/
def expect (kind : Kind) (wanted : Expected) : Reader (Option Token) where
  run
    | [] => ⟨none, [.endOfInput wanted], []⟩
    | t :: rest =>
      if t.kind = kind then ⟨some t, [], rest⟩ else ⟨none, [.unexpected wanted t], rest⟩
  rest_suffix tokens := by
    split
    · exact List.suffix_refl _
    · split <;> exact List.suffix_cons _ _

/-- Takes a keyword, and says whether it was there. -/
def keyword (k : Keyword) : Reader Bool :=
  return (← expect (.keyword k) (.token (.keyword k))).isSome

/-- Takes a symbol, and says whether it was there. -/
def symbol (s : Symbol) : Reader Bool :=
  return (← expect (.symbol s) (.token (.symbol s))).isSome

/-- Takes the word between the two sides of a match. -/
def versus : Reader Bool :=
  return (← expect .versus (.token .versus)).isSome

/-- Takes a string; the token is given, with its place. -/
def string (wanted : Expected) : Reader (Option Token) := expect .string wanted

/-- Takes a number that fits in 32 bits; the token is given as well. -/
def number (wanted : Expected) : Reader (Option (UInt32 × Token)) := do
  match ← expect .number wanted with
  | none => return none
  | some t =>
    match Text.ofLiteral? t.lexeme with
    | some n => return some (n, t)
    | none =>
      report (.numberOutOfRange t)
      return none

/-- Takes a playing position: a position word, or a string that spells one. -/
def position : Reader (Option Position) where
  run
    | [] => ⟨none, [.endOfInput .position], []⟩
    | t :: rest =>
      match t.kind with
      | .position p => ⟨some p, [], rest⟩
      | .string =>
        match Position.ofWord? t.lexeme with
        | some p => ⟨some p, [], rest⟩
        | none => ⟨none, [.notAPosition t], rest⟩
      | _ => ⟨none, [.unexpected .position t], rest⟩
  rest_suffix tokens := by
    repeat' split
    all_goals first | exact List.suffix_refl _ | exact List.suffix_cons _ _

/-- Takes a comma, if there is one. -/
def comma : Reader Unit where
  run
    | [] => ⟨(), [], []⟩
    | t :: rest => if t.kind = .symbol .comma then ⟨(), [], rest⟩ else ⟨(), [], t :: rest⟩
  rest_suffix tokens := by
    split
    · exact List.suffix_refl _
    · split
      · exact List.suffix_cons _ _
      · exact List.suffix_refl _

/-- Skips the tokens before the first that satisfies `p`. -/
def skipTo (p : Kind → Bool) : Reader Unit where
  run tokens := ⟨(), [], tokens.dropWhile fun t => !p t.kind⟩
  rest_suffix _ := List.dropWhile_suffix _

/-- Takes all tokens; the first of them is a fault. -/
def ending : Reader Unit where
  run
    | [] => ⟨(), [], []⟩
    | t :: _ => ⟨(), [.trailing t], []⟩
  rest_suffix _ := by
    split <;> exact List.nil_suffix

/-- Giving a value takes no token. -/
@[simp] theorem run_pure (a : α) (tokens : List Token) :
    (pure a : Reader α).run tokens = ⟨a, [], tokens⟩ := rfl

/-- Two readers run one after the other, and the faults of both are kept. -/
@[simp] theorem run_bind (p : Reader α) (f : α → Reader β) (tokens : List Token) :
    (p >>= f).run tokens =
      ⟨((f (p.run tokens).value).run (p.run tokens).rest).value,
        (p.run tokens).faults ++ ((f (p.run tokens).value).run (p.run tokens).rest).faults,
        ((f (p.run tokens).value).run (p.run tokens).rest).rest⟩ := rfl

end Reader

end Knockout
