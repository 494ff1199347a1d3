import Knockout.Analysis
import Knockout.Proofs.Content
import Knockout.Proofs.Lexing.Lines

/-!
# Moved findings

What is found out about a text may be moved to other places, or its places may be partly forgotten:
`relocate` changes every place in tokens, errors and whole analyses and leaves the rest as it is.
Parsing hands places only on: from tokens that are equal once they are moved it gives the same
document, and errors that are equal once they are moved (`parse_relocate`).
-/

namespace Knockout

section Relocate

variable (g : Location → Location)

/-- The error at another place. -/
def LexicalError.relocate (e : LexicalError) : LexicalError := { e with span := e.span.relocate g }

/-- The error at another place. -/
def SyntaxError.relocate (e : SyntaxError) : SyntaxError := { e with span := e.span.relocate g }

/-- The tokens and the errors at other places. -/
def Lexed.relocate (l : Lexed) : Lexed :=
  ⟨l.tokens.map (.relocate g), l.errors.map (.relocate g)⟩

/-- What is parsed, with its errors at other places. -/
def Parsed.relocate (p : Parsed) : Parsed := ⟨p.document, p.errors.map (.relocate g)⟩

/-- All that is found out about a text, at other places. -/
def Analysis.relocate (a : Analysis) : Analysis :=
  ⟨a.lexed.relocate g, a.parsed.map (.relocate g)⟩

end Relocate

section Parse

variable {g : Location → Location}

/-- The end of the tokens is moved with them. -/
lemma endSpan_relocate (nowhere : g .unknown = .unknown) (ts : List Token) :
    endSpan (ts.map (.relocate g)) = (endSpan ts).relocate g := by
  rw [endSpan, endSpan, List.getLast?_map]
  cases ts.getLast? with
  | none =>
    rw [Span.relocate, Span.unknown, Span.point, nowhere]
    rfl
  | some t => rfl

/-- Tokens that differ in their place at most have the rest in common. -/
lemma Token.of_relocate_eq {t u : Token} (same : t.relocate g = u.relocate g) :
    t.kind = u.kind ∧ t.lexeme = u.lexeme ∧ t.span.relocate g = u.span.relocate g := by
  simpa [relocate] using same

/-- Faults about such tokens are reported alike but for the place. -/
lemma SyntaxFault.Alike.report_eq {f f' : SyntaxFault}
    (same : f.Alike (fun t u => t.relocate g = u.relocate g) f') {ending ending' : Span}
    (ends : ending.relocate g = ending'.relocate g) :
    f.message = f'.message ∧ (f.span ending).relocate g = (f'.span ending').relocate g := by
  have common : ∀ {t u : Token}, t.relocate g = u.relocate g →
      t.lexeme = u.lexeme ∧ t.quoted = u.quoted ∧ t.span.relocate g = u.span.relocate g := by
    intro t u same
    obtain ⟨kind, lexeme, span⟩ := Token.of_relocate_eq same
    exact ⟨lexeme, by rw [Token.quoted, Token.quoted, kind, lexeme], span⟩
  cases same with
  | endOfInput => exact ⟨rfl, ends⟩
  | teamCount same =>
    cases same with
    | none => exact ⟨rfl, rfl⟩
    | some same => exact ⟨rfl, (common same).2.2⟩
  | unexpected same | notAPosition same | stray same | trailing same =>
    obtain ⟨-, quoted, span⟩ := common same
    refine ⟨?_, span⟩
    unfold message
    dsimp only
    rw [quoted]
  | numberOutOfRange same | duplicateTeam same | unknownTeam same =>
    obtain ⟨lexeme, -, span⟩ := common same
    refine ⟨?_, span⟩
    unfold message
    dsimp only
    rw [lexeme]

/-- Parsing hands the places of tokens on and does nothing else with them. -/
theorem parse_relocate (nowhere : g .unknown = .unknown) (strictness : Strictness)
    {ts us : List Token} (same : ts.map (Token.relocate g) = us.map (Token.relocate g)) :
    (parse strictness ts).relocate g = (parse strictness us).relocate g := by
  have related : List.Forall₂ (fun t u : Token => t.relocate g = u.relocate g) ts us := by
    have both : List.Forall₂ (· = ·) (ts.map (Token.relocate g)) (us.map (Token.relocate g)) := by
      rw [List.forall₂_eq_eq_eq, same]
    rwa [List.forall₂_map_left_iff, List.forall₂_map_right_iff] at both
  have content : ∀ t u : Token, t.relocate g = u.relocate g → t.SameContent u := by
    intro t u same
    obtain ⟨kind, lexeme, -⟩ := Token.of_relocate_eq same
    exact ⟨kind, fun _ => lexeme⟩
  have ends : (endSpan ts).relocate g = (endSpan us).relocate g := by
    rw [← endSpan_relocate nowhere, ← endSpan_relocate nowhere, same]
  obtain ⟨document, errors⟩ := parse_alike (U := fun e e' => e.relocate g = e'.relocate g)
    content strictness related fun n f f' alike => by
      obtain ⟨message, span⟩ := alike.report_eq ends
      rw [SyntaxError.relocate, SyntaxError.relocate, alike.kind_eq, message, span]
  have errors : (parse strictness ts).errors.map (SyntaxError.relocate g) =
      (parse strictness us).errors.map (SyntaxError.relocate g) := by
    rw [← List.forall₂_eq_eq_eq, List.forall₂_map_left_iff, List.forall₂_map_right_iff]
    exact errors
  rw [Parsed.relocate, Parsed.relocate, document, errors]

end Parse

end Knockout
