import Knockout.Proofs.Writing.Tokens
import Mathlib.Data.List.Forall2

/-!
# Written tournaments as syntax trees

Tokens that show a script are spelled by the grammar, and the syntax tree stands for what was
written: `Script.Spells` says this of one script and one grammar, and is carried from the attributes
up to whole tournaments (`Tournament.Script.spelled`).
-/

namespace Knockout

open Atom

/-! ## Rows of atoms -/

namespace Atom

variable {tokens rest : List Token} {body : List Atom}

/-- An attribute with its value is three tokens. -/
lemma shown_valued {a : Attribute} {v : Atom} (shown : Shown tokens (valued a v) rest) :
    ∃ k c t, tokens = k :: c :: t :: rest ∧ k.kind = .attribute a ∧ c.kind = .symbol .colon ∧
      v.Matches t := by
  obtain _ | ⟨key, _ | ⟨colon, _ | ⟨value, ⟨⟩⟩⟩⟩ := shown
  exact ⟨_, _, _, rfl, key, colon, value⟩

/-- A named entry starts with four tokens, and its body follows. -/
lemma shown_named {k : Keyword} {name : String} (shown : Shown tokens (named k name body) rest) :
    ∃ t c v o front, tokens = t :: c :: v :: o :: front ∧ t.kind = .keyword k ∧
      c.kind = .symbol .colon ∧ v.kind = .string ∧ v.lexeme = name ∧ o.kind = .symbol .lbracket ∧
      Shown front (body ++ [.symbol .rbracket]) rest := by
  obtain _ | ⟨key, _ | ⟨colon, _ | ⟨⟨kind, lexeme⟩, _ | ⟨opening, shown⟩⟩⟩⟩ := shown
  exact ⟨_, _, _, _, _, rfl, key, colon, kind, lexeme, opening, shown⟩

/-- A list starts with three tokens, and its body follows. -/
lemma shown_listed {k : Kind} (shown : Shown tokens (listed k body) rest) :
    ∃ t c o front, tokens = t :: c :: o :: front ∧ t.kind = k ∧ c.kind = .symbol .colon ∧
      o.kind = .symbol .lbracket ∧ Shown front (body ++ [.symbol .rbracket]) rest := by
  obtain _ | ⟨key, _ | ⟨colon, _ | ⟨opening, shown⟩⟩⟩ := shown
  exact ⟨_, _, _, _, rfl, key, colon, opening, shown⟩

/-- A section starts with two tokens, and its body follows. -/
lemma shown_braced {k : Keyword} (shown : Shown tokens (braced k body) rest) :
    ∃ t o front, tokens = t :: o :: front ∧ t.kind = .keyword k ∧ o.kind = .symbol .lbrace ∧
      Shown front (body ++ [.symbol .rbrace]) rest := by
  obtain _ | ⟨key, _ | ⟨opening, shown⟩⟩ := shown
  exact ⟨_, _, _, rfl, key, opening, shown⟩

end Atom

namespace Script

/-- What a script writes is spelled by a grammar, and the tree means what was written. -/
def Spells (E : Script α) (G : Grammar β) (Means : α → β → Prop) : Prop :=
  ∀ a as, E a as → ∀ tokens rest, Shown tokens as rest → ∃ b, G tokens b rest ∧ Means a b

variable {E : Script α} {G : Grammar β} {Means : α → β → Prop}

/-- Entries that are written one after another are spelled one after another. -/
lemma Spells.each (spells : E.Spells G Means) :
    (Each E).Spells (Entries G) (List.Forall₂ Means) := by
  intro as atoms written
  induction written with
  | nil =>
    intro tokens rest shown
    cases shown
    exact ⟨[], .nil, .nil⟩
  | cons entry _ ih =>
    intro tokens rest shown
    obtain ⟨mid, front, back⟩ := shown_append shown
    obtain ⟨b, spelled, means⟩ := spells _ _ entry _ _ front
    obtain ⟨bs, others, each⟩ := ih _ _ back
    exact ⟨b :: bs, .cons spelled .absent others, .cons means each⟩
  | comma entry _ ih =>
    intro tokens rest shown
    obtain ⟨mid, front, _ | ⟨comma, back⟩⟩ := shown_append shown
    obtain ⟨b, spelled, means⟩ := spells _ _ entry _ _ front
    obtain ⟨bs, others, each⟩ := ih _ _ back
    exact ⟨b :: bs, .cons spelled (.present comma) others, .cons means each⟩

/-- Entries up to the closer of their block are spelled as that grammar has them. -/
lemma Spells.enclosed (spells : E.Spells G Means) {closer : Symbol} {as : List α}
    {body : List Atom} {tokens rest : List Token} (each : Each E as body)
    (shown : Shown tokens (body ++ [.symbol closer]) rest) :
    ∃ bs, Enclosed G closer tokens bs rest ∧ List.Forall₂ Means as bs := by
  obtain ⟨mid, front, _ | ⟨close, ⟨⟩⟩⟩ := shown_append shown
  obtain ⟨bs, spelled, means⟩ := spells.each _ _ each _ _ front
  exact ⟨bs, .intro spelled close, means⟩

/-- A section with its entries is spelled as that grammar has it. -/
lemma Spells.braced (spells : E.Spells G Means) {word : Keyword} {as : List α}
    {body : List Atom} {tokens rest : List Token} (each : Each E as body)
    (shown : Shown tokens (braced word body) rest) :
    ∃ bs, Section word G tokens bs rest ∧ List.Forall₂ Means as bs := by
  obtain ⟨t, o, front, rfl, key, opening, shown⟩ := shown_braced shown
  obtain ⟨bs, enclosed, means⟩ := spells.enclosed each shown
  exact ⟨bs, .intro key opening enclosed, means⟩

end Script

/-! ## Attributes in any order -/

/-- The values that entries give, when each means what is given for one of some keys and the keys
come in any order. -/
lemma filterMap_of_perm {Means : α → β → Prop} {value? : β → Option γ} {given : α → Option γ}
    {as whole : List α} {bs : List β} {v : Option γ} (each : List.Forall₂ Means as bs)
    (means : ∀ a b, Means a b → value? b = given a) (order : as.Perm whole)
    (once : whole.filterMap given = v.toList) : bs.filterMap value? = v.toList := by
  have same : bs.filterMap value? = as.filterMap given := by
    clear order
    induction each with
    | nil => rfl
    | cons head _ ih => rw [List.filterMap_cons, List.filterMap_cons, means _ _ head, ih]
  -- a permutation of at most one value is no permutation at all
  have perm := order.filterMap given
  rw [once, ← same] at perm
  cases v with
  | none => exact perm.eq_nil
  | some v => exact perm.eq_singleton

/-- The last value of an attribute is the given one, in whatever order the attributes come. -/
lemma lastOf_of_perm {Means : α → β → Prop} {value? : β → Option γ} {given : α → Option γ}
    {as whole : List α} {bs : List β} {v : Option γ} (each : List.Forall₂ Means as bs)
    (means : ∀ a b, Means a b → value? b = given a) (order : as.Perm whole)
    (once : whole.filterMap given = v.toList) : lastOf value? bs = v := by
  rw [lastOf, filterMap_of_perm each means order once]
  cases v <;> rfl

/-- The last value, changed, is the last of the changed values. -/
lemma map_lastOf (f : β → γ) (value? : α → Option β) (as : List α) :
    (lastOf value? as).map f = lastOf (fun a => (value? a).map f) as := by
  rw [lastOf, lastOf, ← List.getLast?_map, List.map_filterMap]

/-! ## The header -/

/-- An attribute of the header means what the tournament has for it. -/
structure Header.Item.Means (d : Tournament) (a : Attribute) (item : Header.Item) : Prop where
  name : item.name? = if a = .name then some d.name else none
  count : item.count?.map (·.1) = if a = .teamCount then some d.declaredTeams else none
  venue : item.venue? = if a = .venue then some d.venue else none

/-- The attributes of the header are spelled and mean what is written. -/
lemma Tournament.header_spells (d : Tournament) :
    Script.Spells d.HeaderScript Header.Item.Spelled (Header.Item.Means d) := by
  intro a as written tokens rest shown
  cases written with
  | name =>
    obtain ⟨k, c, t, rfl, key, colon, kind, lexeme⟩ := shown_valued shown
    exact ⟨_, .name key colon kind, congrArg some lexeme, rfl, rfl⟩
  | teamCount =>
    obtain ⟨k, c, t, rfl, key, colon, spells⟩ := shown_valued shown
    exact ⟨_, .teamCount key colon spells, rfl, rfl, rfl⟩
  | venue =>
    obtain ⟨k, c, t, rfl, key, colon, kind, lexeme⟩ := shown_valued shown
    exact ⟨_, .venue key colon kind, rfl, rfl, congrArg some lexeme⟩

/-- A header means what its attributes do, in whatever order they come. -/
lemma Header.ofItems_of_means {d : Tournament} {as : List Attribute} {items : List Header.Item}
    (order : as.Perm [.name, .teamCount, .venue])
    (each : List.Forall₂ (Item.Means d) as items) :
    (ofItems items).name = d.name ∧ (ofItems items).declared = d.declaredTeams ∧
      (ofItems items).venue = d.venue := by
  refine ⟨?_, ?_, ?_⟩
  · have last := lastOf_of_perm (v := some d.name) each (fun _ _ m => m.name) order rfl
    rw [ofItems, last]
    rfl
  · have last := lastOf_of_perm (v := some d.declaredTeams) each (fun _ _ m => m.count) order rfl
    rw [declared, ofItems, map_lastOf, last]
    rfl
  · have last := lastOf_of_perm (v := some d.venue) each (fun _ _ m => m.venue) order rfl
    rw [ofItems, last]
    rfl

/-! ## Teams -/

/-- An attribute of a player means what the player has for it. -/
structure Player.Item.Means (p : Player) (a : Attribute) (item : Player.Item) : Prop where
  position : item.position? = if a = .position then p.position else none
  number : item.number? = if a = .number then some p.number else none
  age : item.age? = if a = .age then p.age else none

/-- The attributes of a player are spelled and mean what is written. -/
lemma Player.attribute_spells (p : Player) :
    Script.Spells p.AttributeScript Player.Item.Spelled (Player.Item.Means p) := by
  intro a as written tokens rest shown
  cases written with
  | position known =>
    obtain ⟨k, c, t, rfl, key, colon, kind⟩ := shown_valued shown
    exact ⟨_, .position key colon (.word kind), known.symm, rfl, rfl⟩
  | number =>
    obtain ⟨k, c, t, rfl, key, colon, spells⟩ := shown_valued shown
    exact ⟨_, .number key colon spells, rfl, rfl, rfl⟩
  | age known =>
    obtain ⟨k, c, t, rfl, key, colon, spells⟩ := shown_valued shown
    exact ⟨_, .age key colon spells, rfl, rfl, known.symm⟩

/-- A player is what its attributes mean, in whatever order they come. -/
lemma Player.Tree.player_of_means {p : Player} {as : List Attribute} {items : List Item}
    {name : Token} (lexeme : name.lexeme = p.name) (order : as.Perm p.attributes)
    (each : List.Forall₂ (Item.Means p) as items) : (Tree.mk name items).player = p := by
  have position : lastOf Item.position? items = p.position := by
    refine lastOf_of_perm each (fun _ _ m => m.position) order ?_
    cases h : p.position <;> cases g : p.age <;> simp [attributes, h, g]
  have number : lastOf Item.number? items = some p.number := by
    refine lastOf_of_perm each (fun _ _ m => m.number) order ?_
    cases h : p.position <;> cases g : p.age <;> simp [attributes, h, g]
  have age : lastOf Item.age? items = p.age := by
    refine lastOf_of_perm each (fun _ _ m => m.age) order ?_
    cases h : p.position <;> cases g : p.age <;> simp [attributes, h, g]
  rw [Tree.player, position, number, age, lexeme]
  rfl

/-- A player is spelled and means what is written. -/
lemma Player.spells : Script.Spells Player.Script Player.Tree.Spelled fun p t => t.player = p := by
  intro p as written tokens rest shown
  obtain ⟨order, each⟩ := written
  obtain ⟨k, c, v, o, front, rfl, key, colon, kind, lexeme, opening, shown⟩ := shown_named shown
  obtain ⟨items, enclosed, means⟩ := p.attribute_spells.enclosed each shown
  exact ⟨_, .intro key colon kind opening enclosed, Tree.player_of_means lexeme order means⟩

/-- Each tree means something that is written. -/
lemma exists_means {Means : α → β → Prop} {as : List α} {bs : List β}
    (each : List.Forall₂ Means as bs) {b : β} (mem : b ∈ bs) : ∃ a, Means a b := by
  induction each with
  | nil => cases mem
  | cons head _ ih =>
    cases mem with
    | head => exact ⟨_, head⟩
    | tail _ mem => exact ih mem

/-- Trees that mean some things stand for these things. -/
lemma map_of_means {value : β → α} {as : List α} {bs : List β}
    (each : List.Forall₂ (fun a b => value b = a) as bs) : bs.map value = as := by
  induction each with
  | nil => rfl
  | cons head _ ih => rw [List.map_cons, head, ih]

/-- A team is spelled and means what is written. -/
lemma Team.spells : Script.Spells Team.Script Team.Tree.Spelled fun t tree => tree.team = t := by
  intro t as written tokens rest shown
  obtain ⟨each⟩ := written
  obtain ⟨k, c, v, o, front, rfl, key, colon, kind, lexeme, opening, shown⟩ := shown_named shown
  obtain ⟨players, enclosed, means⟩ := Player.spells.enclosed each shown
  refine ⟨_, .intro key colon kind opening enclosed, ?_⟩
  show Team.mk v.lexeme (players.map Player.Tree.player) = t
  rw [map_of_means means, lexeme]

/-! ## Rounds -/

/-- The minute of a scorer is spelled and means what is written. -/
lemma Scorer.attribute_spells (s : Scorer) :
    Script.Spells s.AttributeScript MinuteSpelled fun _ n => n = s.minute := by
  intro a as written tokens rest shown
  obtain ⟨⟩ := written
  obtain ⟨k, c, t, rfl, key, colon, spells⟩ := shown_valued shown
  exact ⟨_, .intro key colon spells, rfl⟩

/-- A scorer is spelled and means what is written. -/
lemma Scorer.spells : Script.Spells Scorer.Script Scorer.Tree.Spelled fun s t => t.scorer = s := by
  intro s as written tokens rest shown
  obtain ⟨each⟩ := written
  obtain ⟨k, c, v, o, front, rfl, key, colon, kind, lexeme, opening, shown⟩ := shown_named shown
  obtain ⟨minutes, enclosed, _ | ⟨rfl, ⟨⟩⟩⟩ := s.attribute_spells.enclosed each shown
  refine ⟨_, .intro key colon kind opening enclosed, ?_⟩
  show Scorer.mk v.lexeme s.minute = s
  rw [lexeme]

/-- The scorers an attribute gives, if it is one that does. -/
def Fixture.Item.scorers? : Fixture.Item → Option (List Scorer)
  | .result _ => none
  | .scorers list => some (list.map Scorer.Tree.scorer)

/-- The scorers of a match are those of its lists, one after the other. -/
lemma Fixture.Item.flatMap_scorerList (items : List Item) :
    items.flatMap scorerList = (items.filterMap scorers?).flatten := by
  induction items with
  | nil => rfl
  | cons item items ih =>
    rw [List.flatMap_cons, ih]
    cases item <;> rfl

/-- An attribute of a match means what the match has for it. -/
structure Fixture.Item.Means (f : Fixture) (a : Attribute) (item : Fixture.Item) : Prop where
  result : item.result? = if a = .result then some f.score else none
  scorers : item.scorers? = if a = .scorers then some f.scorers else none

/-- The attributes of a match are spelled and mean what is written. -/
lemma Fixture.attribute_spells (f : Fixture) :
    Script.Spells f.AttributeScript Fixture.Item.Spelled (Fixture.Item.Means f) := by
  intro a as written tokens rest shown
  cases written with
  | result =>
    obtain ⟨k, c, t, rfl, key, colon, kind, lexeme⟩ := shown_valued shown
    exact ⟨_, .result key colon kind, congrArg some lexeme, rfl⟩
  | scorers each =>
    obtain ⟨t, c, o, front, rfl, key, colon, opening, shown⟩ := shown_listed shown
    obtain ⟨scorers, enclosed, means⟩ := Scorer.spells.enclosed each shown
    exact ⟨_, .scorers key colon opening enclosed, rfl, congrArg some (map_of_means means)⟩

/-- A match is what its attributes mean, in whatever order they come. -/
lemma Fixture.Tree.fixture_of_means {f : Fixture} {as : List Attribute} {items : List Item}
    {first second : Token} (firstName : first.lexeme = f.first)
    (secondName : second.lexeme = f.second) (order : as.Perm [.result, .scorers])
    (each : List.Forall₂ (Item.Means f) as items) : (Tree.mk first second items).fixture = f := by
  have score : lastOf Item.result? items = some f.score :=
    lastOf_of_perm each (fun _ _ m => m.result) order rfl
  have scorers : items.flatMap Item.scorerList = f.scorers := by
    have lists := filterMap_of_perm (v := some f.scorers) each (fun _ _ m => m.scorers) order rfl
    rw [Item.flatMap_scorerList, lists]
    exact List.append_nil f.scorers
  rw [Tree.fixture, score, scorers, firstName, secondName]
  rfl

/-- A match is spelled and means what is written. -/
lemma Fixture.spells :
    Script.Spells Fixture.Script Fixture.Tree.Spelled fun f t => t.fixture = f := by
  intro f as written tokens rest shown
  obtain ⟨order, each⟩ := written
  obtain _ | ⟨key, _ | ⟨colon, _ | ⟨⟨first, firstName⟩, _ | ⟨versus, shown⟩⟩⟩⟩ := shown
  obtain _ | ⟨⟨second, secondName⟩, _ | ⟨opening, shown⟩⟩ := shown
  obtain ⟨items, enclosed, means⟩ := f.attribute_spells.enclosed each shown
  exact ⟨_, .intro key colon first versus second opening enclosed,
    Tree.fixture_of_means firstName secondName order means⟩

/-- A round means the matches of a phase. -/
structure Round.Means (b : Bracket) (p : Phase) (r : Round) : Prop where
  phase : r.phase = p
  fixtures : r.fixtures.map Fixture.Tree.fixture = b.fixtures p

/-- The phases of a bracket are spelled and mean what is written. -/
lemma Bracket.spells (b : Bracket) : Script.Spells b.Script Round.Spelled (Round.Means b) := by
  intro p as written tokens rest shown
  obtain ⟨each⟩ := written
  obtain ⟨t, c, o, front, rfl, key, colon, opening, shown⟩ := shown_listed shown
  obtain ⟨fixtures, enclosed, means⟩ := Fixture.spells.enclosed each shown
  exact ⟨_, .intro key colon opening enclosed, rfl, map_of_means means⟩

/-- The matches that a round gives a phase, if it is a round of the phase. -/
def Round.given? (p : Phase) (r : Round) : Option (List Fixture) :=
  if r.phase = p then some (r.fixtures.map Fixture.Tree.fixture) else none

/-- The matches of a phase are those of its rounds, one after the other. -/
lemma Round.fixturesOf_eq_flatten (rounds : List Round) (p : Phase) :
    fixturesOf rounds p = (rounds.filterMap (given? p)).flatten := by
  induction rounds with
  | nil => rfl
  | cons r rounds ih =>
    rw [fixturesOf] at ih ⊢
    by_cases same : r.phase = p <;> simp [given?, same, ih]

/-- The bracket of rounds that mean all the phases of a bracket. -/
lemma Bracket.ofRounds_of_means {b : Bracket} {ps : List Phase} {rounds : List Round}
    (order : ps.Perm Phase.all) (each : List.Forall₂ (Round.Means b) ps rounds)
    (present : ∀ p, (b.get? p).isSome = true) : ofRounds rounds = b := by
  have fixturesOf : ∀ p, some (Round.fixturesOf rounds p) = b.get? p := by
    intro p
    have means : ∀ q r, Round.Means b q r →
        r.given? p = if q = p then some (b.fixtures p) else none := by
      rintro q r ⟨rfl, fixtures⟩
      rw [Round.given?]
      split
      · next same => rw [fixtures, same]
      · rfl
    have lists := filterMap_of_perm (v := some (b.fixtures p)) each means order (by cases p <;> rfl)
    rw [Round.fixturesOf_eq_flatten, lists]
    obtain ⟨fs, found⟩ := Option.isSome_iff_exists.1 (present p)
    simp [fixtures, found]
  have quarterfinals := fixturesOf .quarterfinals
  have semifinal := fixturesOf .semifinal
  have final := fixturesOf .final
  rw [ofRounds, quarterfinals, semifinal, final]
  rfl

/-! ## Whole tournaments -/

/-- A syntax tree means a tournament, whichever order the attributes and the phases come in. -/
structure Definition.Means (d : Tournament) (tree : Definition) : Prop where
  header : ∃ as : List Attribute, as.Perm [.name, .teamCount, .venue] ∧
    List.Forall₂ (Header.Item.Means d) as tree.header
  teams : tree.teams.map Team.Tree.team = d.teams
  rounds : ∃ ps : List Phase, ps.Perm Phase.all ∧
    List.Forall₂ (Round.Means d.bracket) ps tree.rounds

/-- Tokens that show a tournament are spelled, and their syntax tree means the tournament. -/
theorem Tournament.Script.spelled {d : Tournament} {as : List Atom} {tokens : List Token}
    (written : d.Script as) (shown : Shown tokens as []) :
    ∃ tree, Definition.Spelled tokens tree ∧ tree.Means d := by
  obtain ⟨order, header, teams, phases, rounds⟩ := written
  obtain ⟨afterHeader, shownHeader, shown⟩ := shown_append shown
  obtain ⟨afterTeams, shownTeams, shownRounds⟩ := shown_append shown
  obtain ⟨items, headerSpelled, headerMeans⟩ := d.header_spells.braced header shownHeader
  obtain ⟨trees, teamsSpelled, teamsMean⟩ := Team.spells.braced teams shownTeams
  obtain ⟨roundTrees, roundsSpelled, roundsMean⟩ := d.bracket.spells.braced rounds shownRounds
  exact ⟨⟨items, trees, roundTrees⟩, .intro headerSpelled teamsSpelled roundsSpelled,
    ⟨_, order, headerMeans⟩, map_of_means teamsMean, _, phases, roundsMean⟩

end Knockout
