import Knockout.Syntax.Parsed
import Mathlib.Tactic.Lemma

/-!
# Properties of all readers

The readers of a definition are made of readers of single tokens, one after another and in blocks. A
property that these have and keep (`Reader.Invariant`) is one of every part of a definition whose
tokens are not handed on: of players, scorers, matches and phases. A team is left to the property
itself, since the token of its name comes back in a fault when the name is taken.
-/

namespace Knockout

/-- A property of the readers of single tokens that sequences and blocks of readers keep. -/
structure Reader.Invariant (P : ∀ {α : Type}, Reader α → Prop) : Prop where
  pure {α : Type} (a : α) : P (pure a : Reader α)
  bind {α β : Type} {p : Reader α} {f : α → Reader β} (first : P p) (second : ∀ a, P (f a)) :
    P (p >>= f)
  expect (k : Kind) (wanted : Expected) : P (expect k wanted)
  number (wanted : Expected) : P (number wanted)
  position : P position
  side (strictness : Strictness) (teams : List Team) (wanted : Expected) :
    P (Fixture.side strictness teams wanted)
  ending : P ending
  read {ε σ : Type} {b : Block ε} {entry : σ → ε → Reader σ} (each : ∀ s e, P (entry s e)) (s : σ) :
    P (b.read entry s)

namespace Reader.Invariant

variable {P : ∀ {α : Type}, Reader α → Prop} (keeps : Invariant P)
include keeps

/-- The property is one of reading a text. -/
lemma string (wanted : Expected) : P (string wanted) := keeps.expect _ _

/-- The property is one of reading a symbol. -/
lemma symbol (s : Symbol) : P (symbol s) := keeps.bind (keeps.expect _ _) fun _ => keeps.pure _

/-- The property is one of reading a keyword. -/
lemma keyword (k : Keyword) : P (keyword k) := keeps.bind (keeps.expect _ _) fun _ => keeps.pure _

/-- The property is one of reading what stands between two sides. -/
lemma versus : P versus := keeps.bind (keeps.expect _ _) fun _ => keeps.pure _

/-- The property is one of reading a header. -/
lemma header : P Header.reader := by
  refine keeps.bind (keeps.keyword _) fun _ => keeps.bind (keeps.symbol _) fun _ =>
    keeps.read (fun h field => ?_) _
  refine keeps.bind (keeps.symbol _) fun _ => ?_
  cases field with
  | name | venue =>
    refine keeps.bind (keeps.string _) fun t => ?_
    cases t <;> exact keeps.pure _
  | teamCount =>
    refine keeps.bind (keeps.number _) fun n => ?_
    cases n <;> exact keeps.pure _

/-- The property is one of reading a player. -/
lemma player : P Player.reader := by
  refine keeps.bind (keeps.symbol _) fun _ => keeps.bind (keeps.string _) fun _ =>
    keeps.bind (keeps.symbol _) fun _ => keeps.read (fun p field => ?_) _
  refine keeps.bind (keeps.symbol _) fun _ => ?_
  cases field with
  | position =>
    refine keeps.bind keeps.position fun position => ?_
    cases position <;> exact keeps.pure _
  | number | age =>
    refine keeps.bind (keeps.number _) fun n => ?_
    cases n <;> exact keeps.pure _

/-- The property is one of reading the players of a team. -/
lemma roster : P (Player.roster.read Player.rosterEntry []) :=
  keeps.read (fun _ _ => keeps.bind keeps.player fun _ => keeps.pure _) _

/-- The property is one of reading the teams, if it is one of reading a team. -/
lemma teams (each : ∀ teams, P (Team.entry teams ())) : P Team.reader :=
  keeps.bind (keeps.keyword _) fun _ => keeps.bind (keeps.symbol _) fun _ =>
    keeps.read (fun teams _ => each teams) _

/-- The property is one of reading a scorer. -/
lemma scorer : P Scorer.reader := by
  refine keeps.bind (keeps.symbol _) fun _ => keeps.bind (keeps.string _) fun _ =>
    keeps.bind (keeps.symbol _) fun _ => keeps.read (fun s _ => ?_) _
  refine keeps.bind (keeps.symbol _) fun _ => keeps.bind (keeps.number _) fun n => ?_
  cases n <;> exact keeps.pure _

/-- The property is one of reading the scorers of a match. -/
lemma scorers : P Scorer.listReader := by
  refine keeps.bind (keeps.symbol _) fun opened => ?_
  cases opened with
  | true => exact keeps.read (fun _ _ => keeps.bind keeps.scorer fun _ => keeps.pure _) _
  | false => exact keeps.pure _

variable (strictness : Strictness)

/-- The property is one of reading a match. -/
lemma fixture (teams : List Team) : P (Fixture.reader strictness teams) := by
  refine keeps.bind (keeps.symbol _) fun _ => keeps.bind (keeps.side _ _ _) fun _ =>
    keeps.bind keeps.versus fun _ => keeps.bind (keeps.side _ _ _) fun _ =>
      keeps.bind (keeps.symbol _) fun _ => keeps.read (fun f field => ?_) _
  refine keeps.bind (keeps.symbol _) fun _ => ?_
  cases field with
  | result =>
    refine keeps.bind (keeps.string _) fun t => ?_
    cases t <;> exact keeps.pure _
  | scorers => exact keeps.bind keeps.scorers fun _ => keeps.pure _

/-- The property is one of reading the phases. -/
lemma bracket (teams : List Team) : P (Bracket.reader strictness teams) := by
  refine keeps.bind (keeps.keyword _) fun _ => keeps.bind (keeps.symbol _) fun _ =>
    keeps.read (fun b phase => ?_) _
  refine keeps.bind (keeps.symbol _) fun _ => keeps.bind (keeps.symbol _) fun _ =>
    keeps.read (fun b _ => ?_) _
  exact keeps.bind (keeps.fixture strictness teams) fun _ => keeps.pure _

/-- The property is one of reading a definition, if it is one of reading a team. -/
lemma definition (each : ∀ teams, P (Team.entry teams ())) : P (Tournament.reader strictness) :=
  keeps.bind keeps.header fun _ => keeps.bind (keeps.teams each) fun teams =>
    keeps.bind (keeps.bracket strictness teams) fun _ => keeps.bind keeps.ending fun _ =>
      keeps.pure _

end Reader.Invariant

end Knockout
