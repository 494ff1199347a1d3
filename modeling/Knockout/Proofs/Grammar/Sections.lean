import Knockout.Proofs.Grammar.Reading
import Knockout.Syntax.Header
import Knockout.Syntax.Teams

/-!
# Header and teams

The readers of the first two sections follow the grammar. For each block there is a `follows`
statement, for each entry with a name of its own a pair of statements on its reader: `run_reader`,
what is spelled is read as the value that is meant, and `spelled_of_intact`, what is read without
structural faults is spelled.

Readers change what was read before one attribute at a time (`give`); that this leaves the last
value of each attribute is shown on the way (`foldl_give`).
-/

namespace Knockout

/-! ## The header -/

namespace Header

/-- The header with one more attribute. -/
def give (h : Header) : Item → Header
  | .name text => { h with name := text.lexeme }
  | .teamCount n literal => { h with count := some (n, literal) }
  | .venue text => { h with venue := text.lexeme }

/-- One attribute after another leaves the last value of each. -/
lemma foldl_give (h : Header) (items : List Item) :
    items.foldl give h =
      { name := (lastOf Item.name? items).getD h.name
        venue := (lastOf Item.venue? items).getD h.venue
        count := (lastOf Item.count? items).or h.count } := by
  induction items generalizing h with
  | nil => simp
  | cons item items ih =>
    rw [List.foldl_cons, ih]
    cases item <;> simp [give, lastOf_cons, Item.name?, Item.count?, Item.venue?]

/-- The block of the header reads its attributes. -/
lemma follows : block.Follows entry Item.Spelled give fun _ _ => [] where
  reads := by
    intro tokens item rest spelled
    cases spelled with
    | @name k c v _ key colon value =>
      refine ⟨k, _, .name, rfl, by simp [block, key], fun h => ?_⟩
      rw [entry, Reader.run_bind_of_run (Reader.run_symbol colon)]
      exact Reader.run_bind_of_run (Reader.run_string value)
    | @teamCount k c v n _ key colon value =>
      refine ⟨k, _, .teamCount, rfl, by simp [block, key], fun h => ?_⟩
      rw [entry, Reader.run_bind_of_run (Reader.run_symbol colon)]
      exact Reader.run_bind_of_run (Reader.run_number value)
    | @venue k c v _ key colon value =>
      refine ⟨k, _, .venue, rfl, by simp [block, key], fun h => ?_⟩
      rw [entry, Reader.run_bind_of_run (Reader.run_symbol colon)]
      exact Reader.run_bind_of_run (Reader.run_string value)
  spells := by
    intro t front e h start intact
    unfold entry at intact ⊢
    obtain ⟨c, front, rfl, colon⟩ := Reader.symbol_of_intact (Reader.intact_of_bind intact)
    rw [Reader.run_bind_of_run (Reader.run_symbol colon)] at intact ⊢
    rw [block] at start
    dsimp only at start
    split at start
    · next key =>
      cases start
      obtain ⟨v, front, rfl, value⟩ := Reader.string_of_intact (Reader.intact_of_bind intact)
      exact ⟨.name v, by
        rw [Reader.run_bind_of_run (Reader.run_string value)]
        exact .name key colon value⟩
    · next key =>
      cases start
      obtain ⟨v, front, n, rfl, value⟩ := Reader.number_of_intact (Reader.intact_of_bind intact)
      exact ⟨.teamCount n v, by
        rw [Reader.run_bind_of_run (Reader.run_number value)]
        exact .teamCount key colon value⟩
    · next key =>
      cases start
      obtain ⟨v, front, rfl, value⟩ := Reader.string_of_intact (Reader.intact_of_bind intact)
      exact ⟨.venue v, by
        rw [Reader.run_bind_of_run (Reader.run_string value)]
        exact .venue key colon value⟩
    · cases start
  punctuation _ := rfl
  closer_ne_comma := by decide

/-- A spelled header is read as the header that is meant. -/
lemma run_reader {tokens rest : List Token} {items : List Item}
    (spelled : Section .tournament Item.Spelled tokens items rest) :
    reader.run tokens = ⟨ofItems items, [], rest⟩ := by
  refine (follows.run_section rfl spelled {}).trans ?_
  rw [Block.faultsFrom_nil, foldl_give]
  simp [ofItems]

/-- If nothing structural is wrong, the section of the header is spelled. -/
lemma spelled_of_intact {tokens : List Token} (intact : (reader.run tokens).Intact) :
    ∃ items, Section .tournament Item.Spelled tokens items (reader.run tokens).rest :=
  follows.section_of_intact rfl rfl intact

end Header

/-! ## Players -/

namespace Player

/-- The player with one more attribute. -/
def give (p : Player) : Item → Player
  | .position position => { p with position := some position }
  | .number n => { p with number := n }
  | .age n => { p with age := some n }

/-- One attribute after another leaves the last value of each. -/
lemma foldl_give (p : Player) (items : List Item) :
    items.foldl give p =
      { name := p.name
        position := (lastOf Item.position? items).or p.position
        number := (lastOf Item.number? items).getD p.number
        age := (lastOf Item.age? items).or p.age } := by
  induction items generalizing p with
  | nil => simp
  | cons item items ih =>
    rw [List.foldl_cons, ih]
    cases item <;> simp [give, lastOf_cons, Item.position?, Item.number?, Item.age?]

/-- The block of a player reads its attributes. -/
lemma follows : block.Follows entry Item.Spelled give fun _ _ => [] where
  reads := by
    intro tokens item rest spelled
    cases spelled with
    | @position k c v p _ key colon value =>
      refine ⟨k, _, .position, rfl, by simp [block, key], fun s => ?_⟩
      rw [entry, Reader.run_bind_of_run (Reader.run_symbol colon)]
      exact Reader.run_bind_of_run (Reader.run_position value)
    | @number k c v n _ key colon value =>
      refine ⟨k, _, .number, rfl, by simp [block, key], fun s => ?_⟩
      rw [entry, Reader.run_bind_of_run (Reader.run_symbol colon)]
      exact Reader.run_bind_of_run (Reader.run_number value)
    | @age k c v n _ key colon value =>
      refine ⟨k, _, .age, rfl, by simp [block, key], fun s => ?_⟩
      rw [entry, Reader.run_bind_of_run (Reader.run_symbol colon)]
      exact Reader.run_bind_of_run (Reader.run_number value)
  spells := by
    intro t front e s start intact
    unfold entry at intact ⊢
    obtain ⟨c, front, rfl, colon⟩ := Reader.symbol_of_intact (Reader.intact_of_bind intact)
    rw [Reader.run_bind_of_run (Reader.run_symbol colon)] at intact ⊢
    rw [block] at start
    dsimp only at start
    split at start
    · next key =>
      cases start
      obtain ⟨v, front, p, rfl, value⟩ := Reader.position_of_intact (Reader.intact_of_bind intact)
      exact ⟨.position p, by
        rw [Reader.run_bind_of_run (Reader.run_position value)]
        exact .position key colon value⟩
    · next key =>
      cases start
      obtain ⟨v, front, n, rfl, value⟩ := Reader.number_of_intact (Reader.intact_of_bind intact)
      exact ⟨.number n, by
        rw [Reader.run_bind_of_run (Reader.run_number value)]
        exact .number key colon value⟩
    · next key =>
      cases start
      obtain ⟨v, front, n, rfl, value⟩ := Reader.number_of_intact (Reader.intact_of_bind intact)
      exact ⟨.age n, by
        rw [Reader.run_bind_of_run (Reader.run_number value)]
        exact .age key colon value⟩
    · cases start
  punctuation _ := rfl
  closer_ne_comma := by decide

/-- A spelled player is read as the player that is meant. -/
lemma run_reader {k : Token} {front rest : List Token} {t : Tree}
    (spelled : Tree.Spelled (k :: front) t rest) : reader.run front = ⟨t.player, [], rest⟩ := by
  cases spelled with
  | intro _ colon name opening items =>
    refine (Reader.run_named colon name opening).trans ?_
    rw [follows.run_read items, Block.faultsFrom_nil, foldl_give]
    simp [Tree.player]

/-- If nothing structural is wrong, a player is spelled. -/
lemma spelled_of_intact {k : Token} {front : List Token} (key : k.kind = .keyword .player)
    (intact : (reader.run front).Intact) :
    ∃ t, Tree.Spelled (k :: front) t (reader.run front).rest := by
  obtain ⟨c, v, o, tokens, rfl, colon, name, opening, body⟩ := Reader.named_of_intact intact
  obtain ⟨items, spelled⟩ := follows.spelled_of_intact body
  refine ⟨⟨v, items⟩, .intro key colon name opening ?_⟩
  rw [reader, Reader.run_named colon name opening]
  exact spelled

/-- The list of players with one more. -/
def enlist (players : List Player) (t : Tree) : List Player := players ++ [t.player]

/-- Players are listed in their order. -/
lemma foldl_enlist (players : List Player) (trees : List Tree) :
    trees.foldl enlist players = players ++ trees.map Tree.player := by
  induction trees generalizing players with
  | nil => simp
  | cons t trees ih => simp [enlist, ih]

/-- Every entry of a roster starts with the word for a player. -/
lemma roster_entry? (k : Kind) :
    roster.entry? k = if k = .keyword .player then some () else none := by
  cases k with
  | keyword w => cases w <;> rfl
  | _ => rfl

/-- The block of a roster reads players. -/
lemma roster_follows : roster.Follows rosterEntry Tree.Spelled enlist fun _ _ => [] := by
  refine Block.Follows.of_keyword roster_entry? (by decide) ?_ ?_ ?_
  · intro tokens t rest spelled
    cases spelled with
    | intro key => exact ⟨_, _, rfl, key⟩
  · intro k front t rest spelled players
    exact Reader.run_bind_of_run (run_reader spelled)
  · intro k front key players intact
    exact spelled_of_intact key (Reader.intact_of_bind intact)

end Player

/-! ## Teams -/

namespace Team

/-- The teams with one more, unless its name is taken. -/
def enter (teams : List Team) (t : Tree) : List Team :=
  if teams.any (·.name == t.name.lexeme) then teams else teams ++ [t.team]

/-- The fault of a team whose name is taken. -/
def nameFaults (teams : List Team) (t : Tree) : List SyntaxFault :=
  if teams.any (·.name == t.name.lexeme) then [.duplicateTeam t.name] else []

/-- Of the teams that are entered one after another, those with a name of their own stay. -/
lemma foldl_enter (teams : List Team) (trees : List Tree) :
    trees.foldl enter teams =
      teams ++ (firsts (trees.map Tree.team)).filter fun t => !teams.any (·.name == t.name) := by
  induction trees generalizing teams with
  | nil => simp [firsts]
  | cons t trees ih =>
    rw [List.foldl_cons, ih]
    rw [enter]
    cases taken : teams.any (·.name == t.name.lexeme) with
    | true =>
      -- the later teams of this name are left out either way
      have same : ∀ s : Team, (!teams.any (·.name == s.name)) =
          (!teams.any (·.name == s.name) && s.name != t.name.lexeme) := by
        intro s
        by_cases h : s.name = t.name.lexeme
        · simp only [h, taken, Bool.not_true, Bool.false_and]
        · simp [h]
      simp only [if_true, List.map_cons, firsts, List.filter_cons, List.filter_filter]
      rw [if_neg (by simp only [Tree.team, taken]; decide)]
      exact congrArg (teams ++ ·) (List.filter_congr fun s _ => same s)
    | false =>
      simp only [Bool.false_eq_true, if_false, List.map_cons, firsts, List.filter_cons,
        List.filter_filter, List.append_assoc]
      rw [if_pos (by simp only [Tree.team, taken]; decide)]
      refine congrArg (teams ++ ·) (congrArg (t.team :: ·) (List.filter_congr fun s _ => ?_))
      simp [Bool.beq_comm, bne]

/-- A team is entered under its name, or it is a fault that the name is taken. -/
lemma run_enrol (teams : List Team) (t : Tree) (tokens : List Token) :
    (enrol teams (some t.name) t.team.players).run tokens =
      ⟨enter teams t, nameFaults teams t, tokens⟩ := by
  rw [enrol, enter, nameFaults]
  split <;> rfl

/-- Every entry of the teams starts with the word for one. -/
lemma block_entry? (k : Kind) :
    block.entry? k = if k = .keyword .team then some () else none := by
  cases k with
  | keyword w => cases w <;> rfl
  | _ => rfl

/-- A spelled team is entered, unless its name is taken. -/
lemma run_entry {k : Token} {front rest : List Token} {t : Tree}
    (spelled : Tree.Spelled (k :: front) t rest) (teams : List Team) :
    (entry teams ()).run front = ⟨enter teams t, nameFaults teams t, rest⟩ := by
  cases spelled with
  | intro _ colon name opening players =>
    refine (Reader.run_named colon name opening).trans ?_
    have roster := Player.roster_follows.run_read players []
    rw [Block.faultsFrom_nil, Player.foldl_enlist] at roster
    rw [Reader.run_bind_of_run roster]
    exact run_enrol teams ⟨_, _⟩ rest

/-- The block of the teams reads teams. -/
lemma follows : block.Follows entry Tree.Spelled enter nameFaults := by
  refine Block.Follows.of_keyword block_entry? (by decide) ?_ run_entry ?_
  · intro tokens t rest spelled
    cases spelled with
    | intro key => exact ⟨_, _, rfl, key⟩
  · intro k front key teams intact
    obtain ⟨c, v, o, tokens, rfl, colon, name, opening, body⟩ := Reader.named_of_intact intact
    obtain ⟨players, list⟩ := Player.roster_follows.spelled_of_intact (Reader.intact_of_bind body)
    have spelled := Tree.Spelled.intro key colon name opening list
    refine ⟨⟨v, players⟩, ?_⟩
    rw [run_entry spelled]
    exact spelled

/-- The faults of teams whose names are taken, one team after another. -/
def allNameFaults (trees : List Tree) : List SyntaxFault :=
  Block.faultsFrom enter nameFaults [] trees

/-- All that can be wrong with a spelled team is that its name is taken. -/
lemma kind_of_mem_allNameFaults (trees : List Tree) :
    ∀ f ∈ allNameFaults trees, f.kind = .duplicateTeam := by
  apply Block.forall_mem_faultsFrom
  intro teams t f mem
  rw [nameFaults] at mem
  split at mem
  · obtain rfl := List.mem_singleton.1 mem
    rfl
  · cases mem

/-- Spelled teams are read as those of them that come first under their names. -/
lemma run_reader {tokens rest : List Token} {trees : List Tree}
    (spelled : Section .teams Tree.Spelled tokens trees rest) :
    reader.run tokens = ⟨firsts (trees.map Tree.team), allNameFaults trees, rest⟩ := by
  refine (follows.run_section rfl spelled []).trans ?_
  rw [foldl_enter]
  simp [allNameFaults]

/-- If nothing structural is wrong, the section of the teams is spelled. -/
lemma spelled_of_intact {tokens : List Token} (intact : (reader.run tokens).Intact) :
    ∃ trees, Section .teams Tree.Spelled tokens trees (reader.run tokens).rest :=
  follows.section_of_intact rfl rfl intact

end Team

end Knockout
