import Knockout.Proofs.Ensures
import Knockout.Proofs.Grammar.Rounds
import Knockout.Proofs.Grammar.Sections
import Knockout.Syntax.Parsed

/-!
# Where a tournament comes from

Reading never makes anything up. Every entry of a tournament goes back to the keyword that opens it
and every name to a string, in the order in which they stand, and no token is used twice: the marks
of a team or a match (`Team.marks`, `Fixture.marks`) are found again among those of the tokens.
`Reader.Draws` follows what is drawn from tokens through one reader after another; a name that is
missing is a placeholder, which leaves no mark. The main statement is `parse_invents_nothing`.
-/

namespace Knockout

/-- What a token can add to a tournament: an entry or a text. -/
inductive Mark where
  | entry (k : Keyword)
  | text (s : String)
  deriving DecidableEq

namespace Mark

/-- The text of a mark that is one. -/
def text? : Mark → Option String
  | .text s => some s
  | .entry _ => none

/-- The mark of a name, which a placeholder does not leave. -/
def ofName (placeholder name : String) : List Mark :=
  if name = placeholder ∨ name = "" then [] else [.text name]

/-- A name leaves its own text or nothing. -/
lemma ofName_sublist (placeholder name : String) :
    (ofName placeholder name).Sublist [.text name] := by
  rw [ofName]
  split
  · exact List.nil_sublist _
  · exact List.Sublist.refl _

end Mark

namespace Token

/-- The mark of a keyword or of a string. -/
def mark? (t : Token) : Option Mark :=
  match t.kind with
  | .keyword k => some (.entry k)
  | .string => some (.text t.lexeme)
  | _ => none

/-- The marks of some tokens, in their order. -/
def marks (tokens : List Token) : List Mark := tokens.filterMap mark?

/-- Tokens leave their marks one after the other. -/
lemma marks_append (ts us : List Token) : marks (ts ++ us) = marks ts ++ marks us :=
  List.filterMap_append

/-- A keyword leaves the mark of an entry. -/
lemma mark?_of_keyword {t : Token} {k : Keyword} (kind : t.kind = .keyword k) :
    t.mark? = some (.entry k) := by
  simp [mark?, kind]

/-- A string leaves the mark of its text. -/
lemma mark?_of_string {t : Token} (kind : t.kind = .string) : t.mark? = some (.text t.lexeme) := by
  simp [mark?, kind]

end Token

/-! ## What readers draw from tokens -/

/-- What the reader gives is drawn from what is given beforehand and then from the tokens it takes,
in their order. -/
def Reader.Draws (given : List Mark) (p : Reader α) (out : α → List Mark) : Prop :=
  p.Ensures fun a _ taken => (out a).Sublist (given ++ Token.marks taken)

namespace Reader

variable {p : Reader α} {f : α → Reader β} {given : List Mark} {out : α → List Mark}
  {out' : β → List Mark}

/-- What is there beforehand is drawn from without reading. -/
lemma draws_pure {a : α} (drawn : (out a).Sublist given) : (pure a : Reader α).Draws given out :=
  ensures_pure (by simpa [Token.marks] using drawn)

/-- A reader whose value is not used draws nothing. -/
lemma draws_nothing (p : Reader α) (given : List Mark) : p.Draws given fun _ => given :=
  ensures_of_forall fun _ _ _ => List.sublist_append_left _ _

/-- What one reader gives, the next one can draw from. -/
lemma Draws.bind (first : p.Draws given out) (next : ∀ a, (f a).Draws (out a) out') :
    (p >>= f).Draws given out' := by
  refine Ensures.bind first fun a _ taken drawn => (next a).mono fun b _ taken' drawn' => ?_
  rw [Token.marks_append, ← List.append_assoc]
  exact drawn'.trans (drawn.append_right _)

/-- Less can be asked for, and more can be given. -/
lemma Draws.mono {less : α → List Mark} {more : List Mark} (draws : p.Draws given out)
    (fewer : ∀ a, (less a).Sublist (out a)) (sub : given.Sublist more) : p.Draws more less :=
  Ensures.mono draws fun a _ _ drawn => ((fewer a).trans drawn).trans (sub.append_right _)

/-- What stands in front of all that is given is kept there. -/
lemma Draws.after (draws : p.Draws given out) (before : List Mark) :
    p.Draws (before ++ given) fun a => before ++ out a :=
  Ensures.mono draws fun a _ taken drawn => by
    rw [List.append_assoc]
    exact drawn.append_left before

/-- The text of a string is drawn from it. -/
lemma draws_string (wanted : Expected) (given : List Mark) :
    (string wanted).Draws given fun t => given ++ (t.map fun u => Mark.text u.lexeme).toList := by
  refine (ensures_expect .string wanted).mono fun t _ taken found => ?_
  obtain ⟨u, rfl, kind, rfl⟩ | ⟨rfl, -⟩ := found
  · simp [Token.marks, Token.mark?_of_string kind]
  · simp

end Reader

namespace Block

variable {ε σ : Type} {b : Block ε} {entry : σ → ε → Reader σ} {out : σ → List Mark}

/-- A block draws what its entries draw, each with the mark of the token that starts it. -/
lemma draws_read
    (each : ∀ s e (t : Token), b.entry? t.kind = some e →
      (entry s e).Draws (out s ++ t.mark?.toList) out)
    (s : σ) : (b.read entry s).Draws (out s) out := by
  refine ensures_read (I := fun s' _ taken => (out s').Sublist (out s ++ Token.marks taken))
    [] [] ?_ ?_ ?_
  · intro s' _ taken _ taken' drawn
    rw [Token.marks_append, ← List.append_assoc]
    exact drawn.trans (List.sublist_append_left _ _)
  · intro s' _ taken t e start drawn
    refine Reader.Ensures.mono (each s' e t start) fun s'' _ taken' drawn' => ?_
    have split : Token.marks (taken ++ t :: taken') =
        Token.marks taken ++ (t.mark?.toList ++ Token.marks taken') := by
      cases mark : t.mark? <;> simp [Token.marks, mark]
    rw [split, ← List.append_assoc, ← List.append_assoc]
    exact drawn'.trans ((drawn.append_right _).append_right _)
  · simp [Token.marks]

/-- A block whose entries change a value draws what they do. -/
lemma draws_attributes (each : ∀ s e, (entry s e).Draws (out s) out) (s : σ) :
    (b.read entry s).Draws (out s) out :=
  draws_read (fun s e _ _ => (each s e).mono (fun _ => .refl _) (List.sublist_append_left _ _)) s

/-- A block whose entries start with one word draws that word for each of them. -/
lemma draws_list {b : Block Unit} {entry : σ → Unit → Reader σ} {word : Keyword}
    (starts : ∀ k, b.entry? k = if k = .keyword word then some () else none)
    (each : ∀ s, (entry s ()).Draws (out s ++ [.entry word]) out) (s : σ) :
    (b.read entry s).Draws (out s) out := by
  refine draws_read (fun s e t start => ?_) s
  have kind : t.kind = .keyword word := by
    rw [starts] at start
    split at start
    · assumption
    · cases start
  rw [Token.mark?_of_keyword kind]
  exact each s

end Block

/-! ## Teams -/

open Reader

namespace Mark

/-- A name that may be missing is drawn from the token that has it. -/
lemma ofName_getD_sublist (placeholder : String) (t : Option Token) :
    (ofName placeholder ((t.map Token.lexeme).getD "")).Sublist
      (t.map fun u => Mark.text u.lexeme).toList := by
  cases t with
  | none => simp [ofName]
  | some u => exact ofName_sublist _ _

/-- A placeholder leaves nothing. -/
@[simp] lemma ofName_self (placeholder : String) : ofName placeholder placeholder = [] := by
  simp [ofName]

end Mark

namespace Player

/-- What is left of a player. -/
def marks (p : Player) : List Mark := .entry .player :: Mark.ofName Team.placeholder p.name

/-- An attribute of a player adds no mark. -/
lemma draws_entry (p : Player) (field : Field) : (entry p field).Draws p.marks marks := by
  -- no attribute touches the name, which is all that counts of a player
  refine (draws_nothing _ _).bind fun _ => ?_
  cases field with
  | position =>
    refine (draws_nothing _ _).bind fun position => ?_
    cases position <;> exact draws_pure (.refl _)
  | number | age =>
    refine (draws_nothing _ _).bind fun n => ?_
    cases n <;> exact draws_pure (.refl _)

/-- A player is drawn from the word in front and the text of the name. -/
lemma draws_reader : reader.Draws [.entry .player] marks := by
  refine (draws_nothing _ _).bind fun _ => (draws_string _ _).bind fun name =>
    (draws_nothing _ _).bind fun _ =>
      (Block.draws_attributes draws_entry _).mono (fun _ => .refl _) ?_
  exact (Mark.ofName_getD_sublist Team.placeholder name).cons_cons _

/-- Players are drawn from the tokens of their block. -/
lemma draws_roster (given : List Mark) :
    (roster.read rosterEntry []).Draws given fun players => given ++ players.flatMap marks := by
  have list : (roster.read rosterEntry []).Draws (given ++ [].flatMap marks)
      fun players => given ++ players.flatMap marks :=
    Block.draws_list roster_entry? (fun players => ?_) []
  · simpa using list
  · refine (draws_reader.after (given ++ players.flatMap marks)).bind fun p => draws_pure ?_
    simp

end Player

namespace Team

/-- What is left of a team, with its players. -/
def marks (t : Team) : List Mark :=
  .entry .team :: (Mark.ofName placeholder t.name ++ t.players.flatMap Player.marks)

/-- A team that is not added leaves nothing behind. -/
lemma draws_enrol (teams : List Team) (name : Option Token) (players : List Player) :
    (enrol teams name players).Draws
      (teams.flatMap marks ++ [.entry .team] ++ (name.map fun u => Mark.text u.lexeme).toList ++
        players.flatMap Player.marks)
      fun after => after.flatMap marks := by
  cases name with
  | none =>
    refine draws_pure ?_
    simp [marks]
  | some t =>
    have kept := List.Sublist.append (Mark.ofName_sublist placeholder t.lexeme)
      (List.Sublist.refl (players.flatMap Player.marks))
    rw [enrol]
    split
    · refine (draws_nothing _ _).bind fun _ => draws_pure ?_
      simp only [List.append_assoc]
      exact List.sublist_append_left _ _
    · refine draws_pure ?_
      simpa [marks] using kept.cons_cons (.entry .team)

/-- A team is drawn from the word in front and from its tokens, if it is kept. -/
lemma draws_entry (teams : List Team) :
    (entry teams ()).Draws (teams.flatMap marks ++ [.entry .team])
      fun after => after.flatMap marks :=
  (draws_nothing _ _).bind fun _ => (draws_string _ _).bind fun name =>
    (draws_nothing _ _).bind fun _ => (Player.draws_roster _).bind fun players =>
      draws_enrol teams name players

/-- Teams are drawn from the tokens of their block. -/
lemma draws_reader : reader.Draws [] fun teams => teams.flatMap marks :=
  (draws_nothing _ _).bind fun _ => (draws_nothing _ _).bind fun _ =>
    Block.draws_list block_entry? draws_entry []

end Team

/-! ## Matches -/

namespace Scorer

/-- What is left of a scorer. -/
def marks (s : Scorer) : List Mark := .entry .scorer :: Mark.ofName Fixture.placeholder s.player

/-- The minute of a scorer adds no mark. -/
lemma draws_entry (s : Scorer) (field : Unit) : (entry s field).Draws s.marks marks := by
  refine (draws_nothing _ _).bind fun _ => (draws_nothing _ _).bind fun minute => ?_
  cases minute <;> exact draws_pure (.refl _)

/-- A scorer is drawn from the word in front and the text of the name. -/
lemma draws_reader : reader.Draws [.entry .scorer] marks := by
  refine (draws_nothing _ _).bind fun _ => (draws_string _ _).bind fun name =>
    (draws_nothing _ _).bind fun _ =>
      (Block.draws_attributes draws_entry _).mono (fun _ => .refl _) ?_
  exact (Mark.ofName_getD_sublist Fixture.placeholder name).cons_cons _

/-- Scorers are drawn from the tokens of their block. -/
lemma draws_listReader (given : List Mark) :
    listReader.Draws given fun scorers => given ++ scorers.flatMap marks := by
  refine (draws_nothing _ _).bind fun opened => ?_
  have list : (listBlock.read listEntry []).Draws (given ++ [].flatMap marks)
      fun scorers => given ++ scorers.flatMap marks :=
    Block.draws_list listBlock_entry? (fun scorers => ?_) []
  · cases opened with
    | true => simpa using list
    | false => exact draws_pure (by simp)
  · refine (draws_reader.after (given ++ scorers.flatMap marks)).bind fun s => draws_pure ?_
    simp

end Scorer

namespace Fixture

variable {strictness : Strictness} {teams : List Team}

/-- What is left of a match, with its scorers. -/
def marks (f : Fixture) : List Mark :=
  .entry .fixture :: (Mark.ofName placeholder f.first ++ Mark.ofName placeholder f.second ++
    f.scorers.flatMap Scorer.marks)

/-- What is left of the score of a match that has one. -/
def scoreMarks (f : Fixture) : List Mark :=
  if f.score = Goals.pendingText then [] else [.text f.score]

/-- The name of a side is drawn from the text of it. -/
lemma draws_side (wanted : Expected) (given : List Mark) :
    (side strictness teams wanted).Draws given fun name =>
      given ++ Mark.ofName placeholder name := by
  refine (draws_string wanted given).bind fun t => ?_
  cases t with
  | none => exact draws_pure (by simp)
  | some t =>
    have kept := (Mark.ofName_sublist placeholder t.lexeme).append_left given
    dsimp only
    split
    · exact (draws_nothing _ _).bind fun _ => draws_pure kept
    · exact draws_pure kept

/-- An attribute of a match adds the marks of its scorers at most. -/
lemma draws_entry (f : Fixture) (field : Field) : (entry f field).Draws f.marks marks := by
  refine (draws_nothing _ _).bind fun _ => ?_
  cases field with
  | result =>
    refine (draws_nothing _ _).bind fun t => ?_
    cases t <;> exact draws_pure (.refl _)
  | scorers =>
    refine (Scorer.draws_listReader _).bind fun scorers => draws_pure ?_
    simp [marks]

/-- A match is drawn from the word in front and from its tokens. -/
lemma draws_reader : (reader strictness teams).Draws [.entry .fixture] marks := by
  refine (draws_nothing _ _).bind fun _ => (draws_side _ _).bind fun first =>
    (draws_nothing _ _).bind fun _ => (draws_side _ _).bind fun second =>
      (draws_nothing _ _).bind fun _ =>
        (Block.draws_attributes draws_entry _).mono (fun _ => .refl _) ?_
  simp [marks]

/-- An attribute of a match adds the mark of its score at most. -/
lemma draws_score_entry (f : Fixture) (field : Field) :
    (entry f field).Draws f.scoreMarks scoreMarks := by
  refine (draws_nothing _ _).bind fun _ => ?_
  cases field with
  | result =>
    refine (draws_string _ _).bind fun t => ?_
    cases t with
    | none => exact draws_pure (by simp)
    | some t =>
      have kept : (scoreMarks { f with score := t.lexeme }).Sublist [.text t.lexeme] := by
        rw [scoreMarks]
        split
        · exact List.nil_sublist _
        · exact .refl _
      exact draws_pure (kept.trans (List.sublist_append_right _ _))
  | scorers => exact (draws_nothing _ _).bind fun _ => draws_pure (.refl _)

-- the score alone: the sides are read before it, so it is no part of `marks`
/-- The score of a match is drawn from the text of it. -/
lemma draws_score : (reader strictness teams).Draws [.entry .fixture] scoreMarks := by
  refine (draws_nothing _ _).bind fun _ => (draws_nothing _ _).bind fun first =>
    (draws_nothing _ _).bind fun _ => (draws_nothing _ _).bind fun second =>
      (draws_nothing _ _).bind fun _ =>
        (Block.draws_attributes draws_score_entry _).mono (fun _ => .refl _) ?_
  exact List.nil_sublist _

end Fixture

namespace Bracket

variable {strictness : Strictness} {teams : List Team} {out : Bracket → List Mark}
  {own : Fixture → List Mark}

/-- What grows by no more than a match leaves, match after match, is drawn from the tokens. -/
lemma draws_reader (push : ∀ b p f, (out (b.push p f)).Sublist (out b ++ own f))
    (each : (Fixture.reader strictness teams).Draws [.entry .fixture] own) :
    (reader strictness teams).Draws (out {}) out := by
  refine (draws_nothing _ _).bind fun _ => (draws_nothing _ _).bind fun _ =>
    Block.draws_attributes (fun b p => ?_) _
  refine (draws_nothing _ _).bind fun _ => (draws_nothing _ _).bind fun _ =>
    Block.draws_list Fixture.listBlock_entry? (fun b => ?_) b
  exact (each.after (out b)).bind fun f => draws_pure (push b p f)

/-- A further match adds its own marks to its phase and to no other. -/
lemma flatMap_push_sublist (p : Phase) (b : Bracket) (q : Phase) (f : Fixture) :
    (((b.push q f).fixtures p).flatMap own).Sublist ((b.fixtures p).flatMap own ++ own f) := by
  rw [fixtures_push]
  split
  · next same => subst same; simp
  · exact List.sublist_append_left _ _

/-- A further match adds its own marks to all of them. -/
lemma count_all_push (m : Mark) (b : Bracket) (p : Phase) (f : Fixture) :
    ((b.push p f).all.flatMap (own ·.2)).count m =
      (b.all.flatMap (own ·.2)).count m + (own f).count m := by
  cases p <;> simp [all, Phase.all, List.flatMap_append, List.count_append] <;> omega

/-- Whatever the phases have, every phase that is read has a list. -/
lemma ensures_present :
    (reader strictness teams).Ensures fun b _ _ => ∀ p, (b.get? p).isSome = true := by
  refine ensures_bind fun _ _ _ => ensures_bind fun _ _ _ =>
    Block.ensures_read_value (fun b p present => ?_) (fun p => by cases p <;> rfl)
  refine ensures_bind fun _ _ _ => ensures_bind fun _ _ _ =>
    Block.ensures_read_value (fun b _ present => ?_) present
  refine ensures_bind fun f _ _ => ensures_pure fun q => ?_
  rw [push, get?_set]
  split
  · rfl
  · exact present q

end Bracket

/-! ## Whole definitions -/

namespace Token

/-- The texts of the strings among some tokens, in their order. -/
def strings (tokens : List Token) : List String :=
  (tokens.filter (·.kind = .string)).map lexeme

/-- How many of some tokens are a certain keyword. -/
def openers (k : Keyword) (tokens : List Token) : Nat := tokens.countP (·.kind = .keyword k)

/-- The texts among the marks are those of the strings. -/
lemma text?_marks (tokens : List Token) : (marks tokens).filterMap Mark.text? = strings tokens := by
  induction tokens with
  | nil => rfl
  | cons t ts ih =>
    rw [marks, strings] at ih ⊢
    cases kind : t.kind <;> simp [List.filterMap_cons, mark?, kind, Mark.text?, ih]

/-- The entries among the marks are the keywords. -/
lemma count_marks (k : Keyword) (tokens : List Token) :
    (marks tokens).count (.entry k) = openers k tokens := by
  induction tokens with
  | nil => rfl
  | cons t ts ih =>
    rw [marks, openers] at ih ⊢
    cases kind : t.kind <;>
      simp [mark?, kind, List.count_cons, List.countP_cons, ih]

end Token

namespace Mark

/-- A name leaves a text unless it is a placeholder or empty. -/
lemma text?_ofName (placeholder name : String) :
    (ofName placeholder name).filterMap text? =
      [name].filter fun s => s ≠ placeholder ∧ s ≠ "" := by
  by_cases missing : name = placeholder ∨ name = ""
  · obtain rfl | rfl := missing <;> simp [ofName]
  · obtain ⟨named, nonempty⟩ := not_or.1 missing
    simp [ofName, text?, named, nonempty]

/-- A name leaves no entry. -/
@[simp] lemma count_ofName (k : Keyword) (placeholder name : String) :
    (ofName placeholder name).count (.entry k) = 0 := by
  rw [ofName]
  split <;> simp

/-- The texts that parts leave one after another are the names that each of them leaves. -/
lemma text?_flatMap {own : α → List Mark} {names : α → List String} {genuine : String → Bool}
    (each : ∀ a, (own a).filterMap text? = (names a).filter genuine) (as : List α) :
    (as.flatMap own).filterMap text? = (as.flatMap names).filter genuine := by
  induction as with
  | nil => rfl
  | cons a as ih =>
    simp only [List.flatMap_cons, List.filterMap_append, List.filter_append, each, ih]

end Mark

section Count

variable [BEq γ] {own : α → List γ} {c : γ}

/-- What parts leave one after another is counted part by part. -/
lemma count_flatMap_parts {parts : α → List β} (each : ∀ a, (own a).count c = (parts a).length)
    (as : List α) : (as.flatMap own).count c = (as.flatMap parts).length := by
  induction as with
  | nil => rfl
  | cons a as ih => simp only [List.flatMap_cons, List.count_append, List.length_append, each, ih]

/-- What is once in each part is as often in all as there are parts. -/
lemma count_flatMap_once (once : ∀ a, (own a).count c = 1) (as : List α) :
    (as.flatMap own).count c = as.length := by
  simp [List.count_flatMap, Function.comp_def, once, List.map_const']

/-- What is in no part is not in all. -/
lemma count_flatMap_never (never : ∀ a, (own a).count c = 0) (as : List α) :
    (as.flatMap own).count c = 0 := by
  simp [List.count_flatMap, Function.comp_def, never, List.map_const']

end Count

/-! ### The marks of teams and matches -/

/-- The text that a player leaves is the name. -/
lemma Player.text?_marks (p : Player) :
    p.marks.filterMap Mark.text? = [p.name].filter fun s => s ≠ Team.placeholder ∧ s ≠ "" :=
  Mark.text?_ofName _ _

/-- The text that a scorer leaves is the name. -/
lemma Scorer.text?_marks (s : Scorer) :
    s.marks.filterMap Mark.text? = [s.player].filter fun t => t ≠ Fixture.placeholder ∧ t ≠ "" :=
  Mark.text?_ofName _ _

namespace Team

/-- The name of a team and those of its players. -/
def names (t : Team) : List String := t.name :: t.players.map Player.name

/-- The texts that a team leaves are its name and those of its players. -/
lemma text?_marks (t : Team) :
    t.marks.filterMap Mark.text? = t.names.filter fun s => s ≠ placeholder ∧ s ≠ "" := by
  have players : (t.players.flatMap Player.marks).filterMap Mark.text? =
      (t.players.map Player.name).filter fun s => s ≠ placeholder ∧ s ≠ "" := by
    rw [List.map_eq_flatMap]
    exact Mark.text?_flatMap Player.text?_marks t.players
  rw [marks, List.filterMap_cons_none rfl, List.filterMap_append, players, Mark.text?_ofName,
    ← List.filter_append]
  rfl

/-- A team leaves an entry for each of its players. -/
lemma count_player_marks (t : Team) : t.marks.count (.entry .player) = t.players.length := by
  have one : ∀ p : Player, p.marks.count (.entry .player) = 1 := by simp [Player.marks]
  simp [marks, count_flatMap_once one]

/-- A team leaves one entry of a team. -/
lemma count_team_marks (t : Team) : t.marks.count (.entry .team) = 1 := by
  have never : ∀ p : Player, p.marks.count (.entry .team) = 0 := by simp [Player.marks]
  simp [marks, count_flatMap_never never]

end Team

namespace Fixture

/-- The names of the sides of a match and those of its scorers. -/
def names (f : Fixture) : List String := f.first :: f.second :: f.scorers.map Scorer.player

/-- The texts that a match leaves are the names of its sides and scorers. -/
lemma text?_marks (f : Fixture) :
    f.marks.filterMap Mark.text? = f.names.filter fun s => s ≠ placeholder ∧ s ≠ "" := by
  have scorers : (f.scorers.flatMap Scorer.marks).filterMap Mark.text? =
      (f.scorers.map Scorer.player).filter fun s => s ≠ placeholder ∧ s ≠ "" := by
    rw [List.map_eq_flatMap]
    exact Mark.text?_flatMap Scorer.text?_marks f.scorers
  rw [marks, List.filterMap_cons_none rfl, List.filterMap_append, List.filterMap_append, scorers,
    Mark.text?_ofName, Mark.text?_ofName, ← List.filter_append, ← List.filter_append]
  rfl

/-- A match leaves an entry for each of its scorers. -/
lemma count_scorer_marks (f : Fixture) : f.marks.count (.entry .scorer) = f.scorers.length := by
  have one : ∀ s : Scorer, s.marks.count (.entry .scorer) = 1 := by simp [Scorer.marks]
  simp [marks, count_flatMap_once one]

/-- A match leaves one entry of a match. -/
lemma count_fixture_marks (f : Fixture) : f.marks.count (.entry .fixture) = 1 := by
  have never : ∀ s : Scorer, s.marks.count (.entry .fixture) = 0 := by simp [Scorer.marks]
  simp [marks, count_flatMap_never never]

end Fixture

/-! ### The tournament of some tokens -/

section Parse

variable (strictness : Strictness) (tokens : List Token)

/-- What the definition draws is among the marks of the tokens. -/
lemma Tournament.sublist_of_draws (out : Tournament × Option Token → List Mark)
    (draws : (reader strictness).Draws [] out) :
    (out ((reader strictness).run tokens).value).Sublist (Token.marks tokens) := by
  obtain ⟨taken, split, drawn⟩ := draws tokens
  rw [rest_reader, List.append_nil] at split
  rwa [← split] at drawn

/-- The marks of the teams are among those of the tokens. -/
lemma Tournament.marks_teams :
    ((parse strictness tokens).document.teams.flatMap Team.marks).Sublist (Token.marks tokens) := by
  refine sublist_of_draws strictness tokens (fun t => t.1.teams.flatMap Team.marks) ?_
  exact (draws_nothing _ _).bind fun _ => Team.draws_reader.bind fun teams =>
    (draws_nothing _ _).bind fun _ => (draws_nothing _ _).bind fun _ => draws_pure (.refl _)

/-- What the matches of a bracket leave is drawn from the tokens. -/
lemma Tournament.marks_bracket (out : Bracket → List Mark) (own : Fixture → List Mark)
    (push : ∀ b p f, (out (b.push p f)).Sublist (out b ++ own f)) (empty : out {} = [])
    (each : ∀ teams, (Fixture.reader strictness teams).Draws [.entry .fixture] own) :
    (out (parse strictness tokens).document.bracket).Sublist (Token.marks tokens) := by
  refine sublist_of_draws strictness tokens (fun t => out t.1.bracket) ?_
  refine (draws_nothing _ _).bind fun _ => (draws_nothing _ _).bind fun teams => ?_
  have bracket := Bracket.draws_reader push (each teams)
  rw [empty] at bracket
  exact bracket.bind fun _ => (draws_nothing _ _).bind fun _ => draws_pure (.refl _)

/-- The marks of the matches of a phase are among those of the tokens. -/
lemma Tournament.marks_fixtures {own : Fixture → List Mark}
    (each : ∀ teams, (Fixture.reader strictness teams).Draws [.entry .fixture] own) (p : Phase) :
    (((parse strictness tokens).document.bracket.fixtures p).flatMap own).Sublist
      (Token.marks tokens) :=
  marks_bracket strictness tokens (fun b => (b.fixtures p).flatMap own) own
    (Bracket.flatMap_push_sublist p) (by cases p <;> rfl) each

/-- What every match adds to as often as it leaves a mark comes from as many marks of tokens. -/
lemma Tournament.weight_bracket_le {m : Mark} (weight : Bracket → Nat) (empty : weight {} = 0)
    (push : ∀ b p f, weight (b.push p f) = weight b + (Fixture.marks f).count m) :
    weight (parse strictness tokens).document.bracket ≤ (Token.marks tokens).count m := by
  rw [← List.replicate_sublist_iff]
  refine marks_bracket strictness tokens (fun b => List.replicate (weight b) m) Fixture.marks
    (fun b p f => ?_) ?_ fun _ => Fixture.draws_reader
  · rw [push, ← List.replicate_append_replicate]
    exact (List.replicate_sublist_iff.2 (Nat.le_refl _)).append_left _
  · rw [empty]
    rfl

/-- A mark is no more often among the matches than among the tokens. -/
lemma Tournament.count_marks_bracket (m : Mark) :
    ((parse strictness tokens).document.bracket.all.flatMap (Fixture.marks ·.2)).count m ≤
      (Token.marks tokens).count m := by
  -- the goal is left aside here, since it does not tell which part of it is the weight
  have fewer := weight_bracket_le strictness tokens
    (fun b => (b.all.flatMap (Fixture.marks ·.2)).count m) rfl (Bracket.count_all_push m)
  exact fewer

/-- Every phase of a parsed definition has a list of matches. -/
lemma Tournament.present_bracket (p : Phase) :
    ((parse strictness tokens).document.bracket.get? p).isSome = true := by
  have present : (Tournament.reader strictness).Ensures
      fun t _ _ => ∀ p, (t.1.bracket.get? p).isSome = true :=
    ensures_bind fun _ _ _ => ensures_bind fun _ _ _ => Bracket.ensures_present.bind
      fun _ _ _ present => ensures_bind fun _ _ _ => ensures_pure present
  obtain ⟨-, -, present⟩ := present tokens
  exact present p

end Parse

/-- **Nothing is invented.** Whatever the tokens, the document has all three phases; the winner of a
match follows from its own sides and score, and the score is that of a match to come or one of the
strings. The names of teams and players are found among the strings in their order, and so are, for
each phase, those of sides and scorers; only placeholders are not. There are no more teams, players,
matches and scorers than keywords that open them. -/
theorem parse_invents_nothing (strictness : Strictness) (tokens : List Token) :
    let t := (parse strictness tokens).document
    (∀ p, (t.bracket.get? p).isSome = true) ∧
      (∀ p, ∀ f ∈ t.bracket.fixtures p, f.winner = .ofScore f.first f.second f.score ∧
        (f.score = "Pending" ∨ f.score ∈ Token.strings tokens)) ∧
      ((t.teams.flatMap Team.names).filter fun s => s ≠ "Unknown team" ∧ s ≠ "").Sublist
        (Token.strings tokens) ∧
      (∀ p, (((t.bracket.fixtures p).flatMap Fixture.names).filter
        fun s => s ≠ "Unknown" ∧ s ≠ "").Sublist (Token.strings tokens)) ∧
      t.teams.length ≤ Token.openers .team tokens ∧
      (t.teams.flatMap Team.players).length ≤ Token.openers .player tokens ∧
      t.bracket.size ≤ Token.openers .fixture tokens ∧
      (t.bracket.all.flatMap (·.2.scorers)).length ≤ Token.openers .scorer tokens := by
  intro t
  have teams := Tournament.marks_teams strictness tokens
  have fixtures := Tournament.count_marks_bracket strictness tokens
  refine ⟨Tournament.present_bracket strictness tokens, fun p f mem => ⟨rfl, ?score⟩, ?teamNames,
    fun p => ?sideNames, ?teams, ?players, ?fixtures, ?scorers⟩
  case score =>
    have drawn := Tournament.marks_fixtures strictness tokens (fun _ => Fixture.draws_score) p
    by_cases pending : f.score = Goals.pendingText
    · exact .inl pending
    · right
      have kept : Mark.text f.score ∈ f.scoreMarks := by simp [Fixture.scoreMarks, pending]
      have found := drawn.subset (List.mem_flatMap.2 ⟨f, mem, kept⟩)
      rw [← Token.text?_marks]
      exact List.mem_filterMap.2 ⟨_, found, rfl⟩
  case teamNames =>
    have names := teams.filterMap Mark.text?
    rwa [Token.text?_marks, Mark.text?_flatMap Team.text?_marks] at names
  case sideNames =>
    have drawn := Tournament.marks_fixtures strictness tokens (fun _ => Fixture.draws_reader) p
    have names := drawn.filterMap Mark.text?
    rwa [Token.text?_marks, Mark.text?_flatMap Fixture.text?_marks] at names
  case teams =>
    have fewer := teams.count_le (.entry .team)
    rwa [Token.count_marks, count_flatMap_once Team.count_team_marks] at fewer
  case players =>
    have fewer := teams.count_le (.entry .player)
    rwa [Token.count_marks, count_flatMap_parts Team.count_player_marks] at fewer
  case fixtures =>
    have fewer := fixtures (.entry .fixture)
    rwa [Token.count_marks, count_flatMap_once
      fun e : Phase × Fixture => e.2.count_fixture_marks, Bracket.length_all] at fewer
  case scorers =>
    have fewer := fixtures (.entry .scorer)
    rwa [Token.count_marks, count_flatMap_parts
      fun e : Phase × Fixture => e.2.count_scorer_marks] at fewer

end Knockout
