import Knockout.Proofs.Grammar.Acceptance
import Knockout.Proofs.Grammar.Locality

/-!
# Recovery

Tokens that have no place in a block are one fault, however many they are, and nothing else is lost
with them. `Definition.Inside` says by the grammar which fronts of a definition lead to a place of a
block where an entry or the closer is due; that is where stray tokens are put.

The runs of a reader with and without stray tokens are compared by `Reader.Gains`: both give the
same value and leave the same tokens, and the faults of the first are those of the second with one
more among them. A block gains the fault where the stray tokens stand (`Block.gains_stray`), an
entry before them changes nothing about that (`Block.Follows.gains_skip`), and the blocks around
pass it on (`Definition.Inside.gains`). The main statement is `parse_recovers`.
-/

namespace Knockout

namespace BlockName

/-- The kinds of token that start an entry of a block. -/
def entryKinds : BlockName → List Kind
  | .header => [.attribute .name, .attribute .teamCount, .attribute .venue]
  | .teams => [.keyword .team]
  | .roster => [.keyword .player]
  | .player => [.attribute .position, .attribute .number, .attribute .age]
  | .elimination => Phase.all.map fun p => .keyword (.phase p)
  | .fixtures => [.keyword .fixture]
  | .fixture => [.attribute .result, .attribute .scorers]
  | .scorers => [.keyword .scorer]
  | .scorer => [.attribute .minute]

/-- The symbol that closes a block. -/
def closer : BlockName → Symbol
  | .header | .teams | .elimination => .rbrace
  | .roster | .player | .fixtures | .fixture | .scorers | .scorer => .rbracket

/-- Tokens that spell one entry of a block. -/
def SpellsEntry : BlockName → List Token → Prop
  | .header, tokens => ∃ item, Header.Item.Spelled tokens item []
  | .teams, tokens => ∃ t, Team.Tree.Spelled tokens t []
  | .roster, tokens => ∃ t, Player.Tree.Spelled tokens t []
  | .player, tokens => ∃ item, Player.Item.Spelled tokens item []
  | .elimination, tokens => ∃ r, Round.Spelled tokens r []
  | .fixtures, tokens => ∃ t, Fixture.Tree.Spelled tokens t []
  | .fixture, tokens => ∃ item, Fixture.Item.Spelled tokens item []
  | .scorers, tokens => ∃ t, Scorer.Tree.Spelled tokens t []
  | .scorer, tokens => ∃ n, Scorer.MinuteSpelled tokens n []

end BlockName

/-- Tokens that lead from the start of a definition into one of its blocks, to a place where an
entry of the block or the symbol that closes it is due. -/
inductive Definition.Inside : List Token → BlockName → Prop where
  | header {k o : Token} (key : k.kind = .keyword .tournament)
    (opening : o.kind = .symbol .lbrace) : Inside [k, o] .header
  | teams {k o : Token} {first : List Token} {items : List Header.Item}
    (header : Section .tournament Header.Item.Spelled first items [])
    (key : k.kind = .keyword .teams) (opening : o.kind = .symbol .lbrace) :
    Inside (first ++ [k, o]) .teams
  | roster {k c v o : Token} {front : List Token} (outer : Inside front .teams)
    (key : k.kind = .keyword .team) (colon : c.kind = .symbol .colon) (name : v.kind = .string)
    (opening : o.kind = .symbol .lbracket) : Inside (front ++ [k, c, v, o]) .roster
  | player {k c v o : Token} {front : List Token} (outer : Inside front .roster)
    (key : k.kind = .keyword .player) (colon : c.kind = .symbol .colon) (name : v.kind = .string)
    (opening : o.kind = .symbol .lbracket) : Inside (front ++ [k, c, v, o]) .player
  | elimination {k o : Token} {first second : List Token} {items : List Header.Item}
    {trees : List Team.Tree} (header : Section .tournament Header.Item.Spelled first items [])
    (teams : Section .teams Team.Tree.Spelled second trees [])
    (key : k.kind = .keyword .elimination) (opening : o.kind = .symbol .lbrace) :
    Inside (first ++ (second ++ [k, o])) .elimination
  | fixtures {k c o : Token} {front : List Token} {p : Phase} (outer : Inside front .elimination)
    (key : k.kind = .keyword (.phase p)) (colon : c.kind = .symbol .colon)
    (opening : o.kind = .symbol .lbracket) : Inside (front ++ [k, c, o]) .fixtures
  | fixture {k c v x w o : Token} {front : List Token} (outer : Inside front .fixtures)
    (key : k.kind = .keyword .fixture) (colon : c.kind = .symbol .colon) (first : v.kind = .string)
    (versus : x.kind = .versus) (second : w.kind = .string) (opening : o.kind = .symbol .lbracket) :
    Inside (front ++ [k, c, v, x, w, o]) .fixture
  | scorers {k c o : Token} {front : List Token} (outer : Inside front .fixture)
    (key : k.kind = .attribute .scorers) (colon : c.kind = .symbol .colon)
    (opening : o.kind = .symbol .lbracket) : Inside (front ++ [k, c, o]) .scorers
  | scorer {k c v o : Token} {front : List Token} (outer : Inside front .scorers)
    (key : k.kind = .keyword .scorer) (colon : c.kind = .symbol .colon) (name : v.kind = .string)
    (opening : o.kind = .symbol .lbracket) : Inside (front ++ [k, c, v, o]) .scorer
  | entry {n : BlockName} {front entry gap : List Token} (before : Inside front n)
    (spelled : n.SpellsEntry entry) (comma : OptionalComma gap []) :
    Inside (front ++ (entry ++ gap)) n

/-! ## One more fault -/

/-- On the second tokens the reader does what it does on the first, with one more fault. -/
def Reader.Gains (f : SyntaxFault) (p : Reader α) (tokens tokens' : List Token) : Prop :=
  ∃ before after, (p.run tokens).faults = before ++ after ∧
    p.run tokens' = ⟨(p.run tokens).value, before ++ f :: after, (p.run tokens).rest⟩

namespace Reader.Gains

variable {f : SyntaxFault} {p : Reader α} {q : Reader β} {tokens tokens' : List Token}

/-- A reader gains a fault where another one does from which it goes on. -/
lemma of_run {q : Reader α} {mid mid' : List Token} (run : p.run tokens = q.run mid)
    (run' : p.run tokens' = q.run mid') (gains : q.Gains f mid mid') :
    p.Gains f tokens tokens' := by
  unfold Gains
  rw [run, run']
  exact gains

/-- What comes after a reader that gains a fault starts where it would have started. -/
lemma bind {g : α → Reader β} (first : p.Gains f tokens tokens') :
    (p >>= g).Gains f tokens tokens' := by
  obtain ⟨before, after, faults, run⟩ := first
  refine ⟨before, after ++ ((g (p.run tokens).value).run (p.run tokens).rest).faults, ?_, ?_⟩
  · rw [run_bind, faults, List.append_assoc]
  · rw [run_bind, run, run_bind, List.append_assoc, List.cons_append]

/-- A reader that does the same on both tokens leaves the fault to what comes after it. -/
lemma after {g : α → Reader β} {a : α} {fs : List SyntaxFault} {rest rest' : List Token}
    (run : p.run tokens = ⟨a, fs, rest⟩) (run' : p.run tokens' = ⟨a, fs, rest'⟩)
    (next : (g a).Gains f rest rest') : (p >>= g).Gains f tokens tokens' := by
  obtain ⟨before, after, faults, runNext⟩ := next
  refine ⟨fs ++ before, after, ?_, ?_⟩
  · rw [run_bind, run, faults, List.append_assoc]
  · rw [run_bind, run', run_bind, run, runNext, List.append_assoc]

/-- A section gains what is gained after its word and its brace. -/
lemma sectioned {r : Reader β} {k o : Token} {word : Keyword} (key : k.kind = .keyword word)
    (opening : o.kind = .symbol .lbrace) (body : r.Gains f tokens tokens') :
    (do
      let _ ← keyword word
      let _ ← symbol .lbrace
      r).Gains f (k :: o :: tokens) (k :: o :: tokens') :=
  .after (run_keyword key) (run_keyword key) (.after (run_symbol opening) (run_symbol opening) body)

end Reader.Gains

namespace Block

variable {ε σ α : Type} {b : Block ε} {entry : σ → ε → Reader σ} {G : Grammar α}
  {apply : σ → α → σ} {faults : σ → α → List SyntaxFault} {f : SyntaxFault}

/-- A turn passes on what its entry gains. -/
lemma gains_turn (punctuation : ∀ x : Symbol, b.entry? (.symbol x) = none) {k : Token} {e : ε}
    (start : b.entry? k.kind = some e) {s : σ} {tokens tokens' : List Token}
    (gains : (entry s e).Gains f tokens tokens') :
    (b.entries entry s).Gains f (k :: tokens) (k :: tokens') := by
  have unclosed : k.kind ≠ .symbol b.closer := by
    intro closed
    rw [closed, punctuation] at start
    cases start
  have turn : (b.turn entry s k).Gains f tokens tokens' := by
    unfold Block.turn
    rw [start]
    exact gains.bind
  exact .of_run (run_entries_of_ne unclosed s tokens) (run_entries_of_ne unclosed s tokens')
    turn.bind

/-- The block has the entries and the closer that go with its name. -/
structure Regular (b : Block ε) : Prop where
  starts : ∀ k, b.starts k = true ↔ k ∈ b.name.entryKinds
  closer : b.closer = b.name.closer

/-- A block goes on at the start of an entry, at a comma and at its closer. -/
lemma Regular.resumes_iff (regular : b.Regular) (k : Kind) :
    b.resumes k = true ↔
      k ∈ b.name.entryKinds ∨ k = .symbol .comma ∨ k = .symbol b.name.closer := by
  simp only [resumes, Bool.or_eq_true, regular.starts, regular.closer, beq_iff_eq, or_assoc]

end Block

namespace BlockName

/-- An entry of the block or the symbol that closes it comes next. -/
def Due (n : BlockName) (tokens : List Token) : Prop :=
  ∃ t rest, tokens = t :: rest ∧ (t.kind ∈ n.entryKinds ∨ t.kind = .symbol n.closer)

/-- A token that neither starts an entry of the block nor separates entries nor closes it. -/
structure Foreign (n : BlockName) (t : Token) : Prop where
  starts : t.kind ∉ n.entryKinds
  separates : t.kind ≠ .symbol .comma
  closes : t.kind ≠ .symbol n.closer

instance (n : BlockName) (t : Token) : Decidable (n.Foreign t) :=
  decidable_of_iff
    (t.kind ∉ n.entryKinds ∧ t.kind ≠ .symbol .comma ∧ t.kind ≠ .symbol n.closer)
    ⟨fun h => ⟨h.1, h.2.1, h.2.2⟩, fun h => ⟨h.starts, h.separates, h.closes⟩⟩

/-- A comma starts no entry. -/
lemma comma_notMem_entryKinds (n : BlockName) : Kind.symbol .comma ∉ n.entryKinds := by
  cases n <;> decide

/-- A comma closes no block. -/
lemma closer_ne_comma (n : BlockName) : n.closer ≠ .comma := by
  cases n <;> decide

/-- Where an entry or the closer is due, no comma is read. -/
lemma Due.run_comma {n : BlockName} {tokens : List Token} (due : n.Due tokens) :
    Reader.comma.run tokens = ⟨(), [], tokens⟩ := by
  obtain ⟨t, rest, rfl, start | close⟩ := due
  · apply Reader.run_comma_of_ne
    intro comma
    rw [comma] at start
    exact n.comma_notMem_entryKinds start
  · apply Reader.run_comma_of_ne
    intro comma
    exact n.closer_ne_comma (Kind.symbol.inj (close.symm.trans comma))

end BlockName

/-- A comma that may be there is taken, and nothing else. -/
lemma Reader.run_comma_gap {gap tokens : List Token} (comma : OptionalComma gap [])
    (uneaten : Reader.comma.run tokens = ⟨(), [], tokens⟩) :
    Reader.comma.run (gap ++ tokens) = ⟨(), [], tokens⟩ := by
  cases comma with
  | absent => exact uneaten
  | present comma => exact run_comma comma

namespace Block

variable {ε σ α : Type} {b : Block ε} {entry : σ → ε → Reader σ} {G : Grammar α}
  {apply : σ → α → σ} {faults : σ → α → List SyntaxFault} {f : SyntaxFault}

/-- Stray tokens and the comma after them are taken in one turn. -/
lemma run_turn_stray (regular : b.Regular) {t : Token} {junk gap back : List Token}
    (foreign : ∀ u ∈ t :: junk, b.name.Foreign u) (comma : OptionalComma gap [])
    (due : b.name.Due back) (s : σ) :
    (b.turn entry s t).run (junk ++ (gap ++ back)) = ⟨s, [.stray b.name t], back⟩ := by
  have skips : ∀ u ∈ junk, (!b.resumes u.kind) = true := by
    intro u mem
    have alien := foreign u (List.mem_cons_of_mem t mem)
    rw [Bool.not_eq_true', Bool.eq_false_iff, Ne, regular.resumes_iff]
    rintro (starts | separates | closes)
    · exact alien.starts starts
    · exact alien.separates separates
    · exact alien.closes closes
  have stops : (gap ++ back).dropWhile (fun u => !b.resumes u.kind) = gap ++ back := by
    cases comma with
    | absent =>
      obtain ⟨u, rest, rfl, next⟩ := due
      refine List.dropWhile_cons_of_neg ?_
      rw [Bool.not_eq_true', Bool.not_eq_false, regular.resumes_iff]
      exact next.imp_right .inr
    | present comma =>
      refine List.dropWhile_cons_of_neg ?_
      rw [Bool.not_eq_true', Bool.not_eq_false, regular.resumes_iff]
      exact .inr (.inl comma)
  have stray : b.entry? t.kind = none := by
    have starts := (foreign t List.mem_cons_self).starts
    rw [← regular.starts, Block.starts, Bool.not_eq_true, Option.isSome_eq_false_iff] at starts
    exact Option.isNone_iff_eq_none.1 starts
  have skipped : (Reader.skipTo b.resumes).run (junk ++ (gap ++ back)) = ⟨(), [], gap ++ back⟩ := by
    rw [Reader.run_skipTo, List.dropWhile_append_of_pos skips, stops]
  unfold Block.turn
  rw [stray]
  simp only [Reader.run_bind, Reader.run_pure, Reader.run_report, skipped,
    Reader.run_comma_gap comma due.run_comma, List.append_nil]

/-- Where stray tokens are put in, a block gains the fault of the first of them. -/
lemma gains_stray (regular : b.Regular) {t : Token} {junk gap back : List Token}
    (foreign : ∀ u ∈ t :: junk, b.name.Foreign u) (comma : OptionalComma gap [])
    (due : b.name.Due back) (s : σ) :
    (b.entries entry s).Gains (.stray b.name t) back (t :: (junk ++ (gap ++ back))) := by
  have ne : t.kind ≠ .symbol b.closer := by
    rw [regular.closer]
    exact (foreign t List.mem_cons_self).closes
  refine ⟨[], ((b.entries entry s).run back).faults, rfl, ?_⟩
  rw [run_entries_of_ne ne, Reader.run_bind, run_turn_stray regular foreign comma due]
  rfl

namespace Follows

/-- Where an entry is spelled, the block reads the entry and goes on after it. -/
lemma run_entries_spelled (h : b.Follows entry G apply faults) {tokens mid next : List Token}
    {a : α} (spelled : G tokens a mid) (comma : Reader.comma.run mid = ⟨(), [], next⟩) (s : σ) :
    (b.entries entry s).run tokens =
      ⟨((b.entries entry (apply s a)).run next).value,
        faults s a ++ ((b.entries entry (apply s a)).run next).faults,
        ((b.entries entry (apply s a)).run next).rest⟩ := by
  obtain ⟨t, front, e, rfl, start, run⟩ := h.reads spelled
  have ne : t.kind ≠ .symbol b.closer := by
    intro closed
    rw [closed, h.punctuation] at start
    cases start
  rw [run_entries_of_ne ne, Reader.run_bind, run_turn start (run s) comma]

/-- An entry before the place where a block gains a fault changes nothing about that. -/
lemma gains_skip (h : b.Follows entry G apply faults) (locality : Local G)
    {one gap tokens tokens' : List Token} {a : α} (spelled : G one a [])
    (comma : OptionalComma gap []) (uneaten : Reader.comma.run tokens = ⟨(), [], tokens⟩)
    (uneaten' : Reader.comma.run tokens' = ⟨(), [], tokens'⟩)
    (gains : ∀ s, (b.entries entry s).Gains f tokens tokens') (s : σ) :
    (b.entries entry s).Gains f (one ++ (gap ++ tokens)) (one ++ (gap ++ tokens')) := by
  have run := h.run_entries_spelled (locality.append spelled (gap ++ tokens))
    (Reader.run_comma_gap comma uneaten) s
  have run' := h.run_entries_spelled (locality.append spelled (gap ++ tokens'))
    (Reader.run_comma_gap comma uneaten') s
  obtain ⟨before, after, faults', runGains⟩ := gains (apply s a)
  refine ⟨faults s a ++ before, after, ?_, ?_⟩
  · rw [run, faults', List.append_assoc]
  · rw [run', run, runGains, List.append_assoc]

end Follows

end Block

/-! ## The nine blocks -/

/-- What an entry is spelled with starts as the entries of the block do. -/
lemma Block.Regular.due {b : Block ε} {entry : σ → ε → Reader σ} {apply : σ → α → σ}
    {faults : σ → α → List SyntaxFault} {G : Grammar α} {tokens rest : List Token} {a : α}
    (regular : b.Regular) (h : b.Follows entry G apply faults) (spelled : G tokens a rest) :
    b.name.Due tokens := by
  obtain ⟨t, front, e, rfl, start, -⟩ := h.reads spelled
  refine ⟨t, front, rfl, .inl ?_⟩
  rw [← regular.starts, Block.starts, start]
  rfl

/-- The block of the header has the entries and the closer of its name. -/
lemma Header.regular : block.Regular where
  starts k := by
    simp only [Block.starts, block, BlockName.entryKinds]
    split <;> simp_all
  closer := rfl

/-- The block of the teams has the entries and the closer of its name. -/
lemma Team.regular : block.Regular where
  starts k := by
    rw [Block.starts, block_entry?]
    simp [block, BlockName.entryKinds]
  closer := rfl

/-- The block of the players has the entries and the closer of its name. -/
lemma Player.roster_regular : roster.Regular where
  starts k := by
    rw [Block.starts, roster_entry?]
    simp [roster, BlockName.entryKinds]
  closer := rfl

/-- The block of a player has the entries and the closer of its name. -/
lemma Player.regular : block.Regular where
  starts k := by
    simp only [Block.starts, block, BlockName.entryKinds]
    split <;> simp_all
  closer := rfl

/-- The block of the phases has the entries and the closer of its name. -/
lemma Bracket.regular : block.Regular where
  starts k := by
    simp only [Block.starts, block, BlockName.entryKinds]
    split
    · simp [Phase.mem_all]
    · next other =>
      simp only [Option.isSome_none, Bool.false_eq_true, List.mem_map, false_iff, not_exists,
        not_and]
      intro p _ same
      exact other p same.symm
  closer := rfl

/-- The block of the matches has the entries and the closer of its name. -/
lemma Fixture.list_regular : listBlock.Regular where
  starts k := by
    rw [Block.starts, listBlock_entry?]
    simp [listBlock, BlockName.entryKinds]
  closer := rfl

/-- The block of a match has the entries and the closer of its name. -/
lemma Fixture.regular : block.Regular where
  starts k := by
    simp only [Block.starts, block, BlockName.entryKinds]
    split <;> simp_all
  closer := rfl

/-- The block of the scorers has the entries and the closer of its name. -/
lemma Scorer.list_regular : listBlock.Regular where
  starts k := by
    rw [Block.starts, listBlock_entry?]
    simp [listBlock, BlockName.entryKinds]
  closer := rfl

/-- The block of a scorer has the entries and the closer of its name. -/
lemma Scorer.regular : block.Regular where
  starts k := by
    simp only [Block.starts, block, BlockName.entryKinds]
    split <;> simp_all
  closer := rfl

namespace BlockName

/-- Whatever has been read of the block before, reading its entries gains the fault. -/
def Gains (f : SyntaxFault) (n : BlockName) (tokens tokens' : List Token) : Prop :=
  match n with
  | .header => ∀ h, (Header.block.entries Header.entry h).Gains f tokens tokens'
  | .teams => ∀ teams, (Team.block.entries Team.entry teams).Gains f tokens tokens'
  | .roster => ∀ players, (Player.roster.entries Player.rosterEntry players).Gains f tokens tokens'
  | .player => ∀ p, (Player.block.entries Player.entry p).Gains f tokens tokens'
  | .elimination => ∀ strictness teams b,
    (Bracket.block.entries (Bracket.entry strictness teams) b).Gains f tokens tokens'
  | .fixtures => ∀ strictness teams phase b, (Fixture.listBlock.entries
    (Fixture.listEntry strictness teams phase) b).Gains f tokens tokens'
  | .fixture => ∀ m, (Fixture.block.entries Fixture.entry m).Gains f tokens tokens'
  | .scorers => ∀ scorers,
    (Scorer.listBlock.entries Scorer.listEntry scorers).Gains f tokens tokens'
  | .scorer => ∀ s, (Scorer.block.entries Scorer.entry s).Gains f tokens tokens'

variable {n : BlockName} {f : SyntaxFault}

/-- Foreign tokens where an entry is due give one fault, about the first of them. -/
lemma gains_stray {t : Token} {junk gap back : List Token}
    (foreign : ∀ u ∈ t :: junk, n.Foreign u) (comma : OptionalComma gap []) (due : n.Due back) :
    n.Gains (.stray n t) back (t :: (junk ++ (gap ++ back))) := by
  cases n with
  | header => exact Block.gains_stray Header.regular foreign comma due
  | teams => exact Block.gains_stray Team.regular foreign comma due
  | roster => exact Block.gains_stray Player.roster_regular foreign comma due
  | player => exact Block.gains_stray Player.regular foreign comma due
  | elimination => exact fun _ _ => Block.gains_stray Bracket.regular foreign comma due
  | fixtures => exact fun _ _ _ => Block.gains_stray Fixture.list_regular foreign comma due
  | fixture => exact Block.gains_stray Fixture.regular foreign comma due
  | scorers => exact Block.gains_stray Scorer.list_regular foreign comma due
  | scorer => exact Block.gains_stray Scorer.regular foreign comma due

/-- A fault behind an entry is gained in front of it. -/
lemma gains_skip {one gap tokens tokens' : List Token} (spelled : n.SpellsEntry one)
    (comma : OptionalComma gap []) (uneaten : Reader.comma.run tokens = ⟨(), [], tokens⟩)
    (uneaten' : Reader.comma.run tokens' = ⟨(), [], tokens'⟩) (gains : n.Gains f tokens tokens') :
    n.Gains f (one ++ (gap ++ tokens)) (one ++ (gap ++ tokens')) := by
  cases n with
  | header =>
    obtain ⟨item, spelled⟩ := spelled
    exact Header.follows.gains_skip Header.Item.local spelled comma uneaten uneaten' gains
  | teams =>
    obtain ⟨t, spelled⟩ := spelled
    exact Team.follows.gains_skip Team.Tree.local spelled comma uneaten uneaten' gains
  | roster =>
    obtain ⟨t, spelled⟩ := spelled
    exact Player.roster_follows.gains_skip Player.Tree.local spelled comma uneaten uneaten' gains
  | player =>
    obtain ⟨item, spelled⟩ := spelled
    exact Player.follows.gains_skip Player.Item.local spelled comma uneaten uneaten' gains
  | elimination =>
    obtain ⟨r, spelled⟩ := spelled
    intro strictness teams
    exact Bracket.follows.gains_skip Round.local spelled comma uneaten uneaten'
      (gains strictness teams)
  | fixtures =>
    obtain ⟨t, spelled⟩ := spelled
    intro strictness teams phase
    exact (Fixture.list_follows phase).gains_skip Fixture.Tree.local spelled comma uneaten uneaten'
      (gains strictness teams phase)
  | fixture =>
    obtain ⟨item, spelled⟩ := spelled
    exact Fixture.follows.gains_skip Fixture.Item.local spelled comma uneaten uneaten' gains
  | scorers =>
    obtain ⟨t, spelled⟩ := spelled
    exact Scorer.list_follows.gains_skip Scorer.Tree.local spelled comma uneaten uneaten' gains
  | scorer =>
    obtain ⟨minute, spelled⟩ := spelled
    exact Scorer.follows.gains_skip Scorer.minute_local spelled comma uneaten uneaten' gains

/-- An entry starts as entries of its block do. -/
lemma SpellsEntry.due {one : List Token} (spelled : n.SpellsEntry one) (rest : List Token) :
    n.Due (one ++ rest) := by
  cases n with
  | header =>
    obtain ⟨item, spelled⟩ := spelled
    exact Header.regular.due Header.follows (Header.Item.local.append spelled rest)
  | teams =>
    obtain ⟨t, spelled⟩ := spelled
    exact Team.regular.due Team.follows (Team.Tree.local.append spelled rest)
  | roster =>
    obtain ⟨t, spelled⟩ := spelled
    exact Player.roster_regular.due Player.roster_follows (Player.Tree.local.append spelled rest)
  | player =>
    obtain ⟨item, spelled⟩ := spelled
    exact Player.regular.due Player.follows (Player.Item.local.append spelled rest)
  | elimination =>
    obtain ⟨r, spelled⟩ := spelled
    exact Bracket.regular.due (@Bracket.follows {} []) (Round.local.append spelled rest)
  | fixtures =>
    obtain ⟨t, spelled⟩ := spelled
    exact Fixture.list_regular.due (@Fixture.list_follows {} [] .final)
      (Fixture.Tree.local.append spelled rest)
  | fixture =>
    obtain ⟨item, spelled⟩ := spelled
    exact Fixture.regular.due Fixture.follows (Fixture.Item.local.append spelled rest)
  | scorers =>
    obtain ⟨t, spelled⟩ := spelled
    exact Scorer.list_regular.due Scorer.list_follows (Scorer.Tree.local.append spelled rest)
  | scorer =>
    obtain ⟨minute, spelled⟩ := spelled
    exact Scorer.regular.due Scorer.follows (Scorer.minute_local.append spelled rest)

end BlockName

/-! ## Whole definitions -/

/-- A place inside a definition where a block gains a fault is one where the definition does. -/
theorem Definition.Inside.gains {front tokens tokens' : List Token} {n : BlockName}
    {f : SyntaxFault} (inside : Inside front n) (strictness : Strictness)
    (uneaten : Reader.comma.run tokens = ⟨(), [], tokens⟩)
    (uneaten' : Reader.comma.run tokens' = ⟨(), [], tokens'⟩) (gains : n.Gains f tokens tokens') :
    (Tournament.reader strictness).Gains f (front ++ tokens) (front ++ tokens') := by
  induction inside generalizing tokens tokens' with
  | header key opening =>
    exact (Reader.Gains.sectioned key opening (gains {}).bind).bind
  | teams header key opening =>
    simp only [List.append_assoc, List.cons_append, List.nil_append]
    refine .after (Header.run_reader ((Header.Item.local.sectioned _).append header _))
      (Header.run_reader ((Header.Item.local.sectioned _).append header _)) ?_
    exact (Reader.Gains.sectioned key opening (gains []).bind).bind
  | elimination header teams key opening =>
    simp only [List.append_assoc, List.cons_append, List.nil_append]
    refine .after (Header.run_reader ((Header.Item.local.sectioned _).append header _))
      (Header.run_reader ((Header.Item.local.sectioned _).append header _)) ?_
    refine .after (Team.run_reader ((Team.Tree.local.sectioned _).append teams _))
      (Team.run_reader ((Team.Tree.local.sectioned _).append teams _)) ?_
    exact (Reader.Gains.sectioned key opening (gains strictness _ {}).bind).bind
  | roster outer key colon name opening ih =>
    simp only [List.append_assoc, List.cons_append, List.nil_append]
    refine ih (Reader.run_comma_of_ne (by simp [key])) (Reader.run_comma_of_ne (by simp [key])) ?_
    intro teams
    refine Block.gains_turn Team.follows.punctuation (e := ()) (by simp [Team.block_entry?, key]) ?_
    refine .of_run (Reader.run_named colon name opening) (Reader.run_named colon name opening) ?_
    exact (gains []).bind.bind
  | player outer key colon name opening ih =>
    simp only [List.append_assoc, List.cons_append, List.nil_append]
    refine ih (Reader.run_comma_of_ne (by simp [key])) (Reader.run_comma_of_ne (by simp [key])) ?_
    intro players
    refine Block.gains_turn Player.roster_follows.punctuation (e := ())
      (by simp [Player.roster_entry?, key]) ?_
    refine Reader.Gains.bind ?_
    refine .of_run (Reader.run_named colon name opening) (Reader.run_named colon name opening) ?_
    exact (gains _).bind
  | @fixtures _ _ _ _ p outer key colon opening ih =>
    simp only [List.append_assoc, List.cons_append, List.nil_append]
    refine ih (Reader.run_comma_of_ne (by simp [key])) (Reader.run_comma_of_ne (by simp [key])) ?_
    intro strictness teams b
    refine Block.gains_turn (@Bracket.follows strictness teams).punctuation (e := p)
      (by simp [Bracket.block, key]) ?_
    refine .after (Reader.run_symbol colon) (Reader.run_symbol colon) ?_
    refine .after (Reader.run_symbol opening) (Reader.run_symbol opening) ?_
    exact (gains strictness teams p b).bind
  | fixture outer key colon first versus second opening ih =>
    simp only [List.append_assoc, List.cons_append, List.nil_append]
    refine ih (Reader.run_comma_of_ne (by simp [key])) (Reader.run_comma_of_ne (by simp [key])) ?_
    intro strictness teams phase b
    refine Block.gains_turn (@Fixture.list_follows strictness teams phase).punctuation (e := ())
      (by simp [Fixture.listBlock_entry?, key]) ?_
    refine Reader.Gains.bind ?_
    refine .after (Reader.run_symbol colon) (Reader.run_symbol colon) ?_
    refine .after (Fixture.run_side first) (Fixture.run_side first) ?_
    refine .after (Reader.run_versus versus) (Reader.run_versus versus) ?_
    refine .after (Fixture.run_side second) (Fixture.run_side second) ?_
    refine .after (Reader.run_symbol opening) (Reader.run_symbol opening) ?_
    exact (gains _).bind
  | scorers outer key colon opening ih =>
    simp only [List.append_assoc, List.cons_append, List.nil_append]
    refine ih (Reader.run_comma_of_ne (by simp [key])) (Reader.run_comma_of_ne (by simp [key])) ?_
    intro m
    refine Block.gains_turn Fixture.follows.punctuation (e := .scorers)
      (by simp [Fixture.block, key]) ?_
    refine .after (Reader.run_symbol colon) (Reader.run_symbol colon) ?_
    refine Reader.Gains.bind ?_
    refine .after (Reader.run_symbol opening) (Reader.run_symbol opening) ?_
    exact (gains []).bind
  | scorer outer key colon name opening ih =>
    simp only [List.append_assoc, List.cons_append, List.nil_append]
    refine ih (Reader.run_comma_of_ne (by simp [key])) (Reader.run_comma_of_ne (by simp [key])) ?_
    intro scorers
    refine Block.gains_turn Scorer.list_follows.punctuation (e := ())
      (by simp [Scorer.listBlock_entry?, key]) ?_
    refine Reader.Gains.bind ?_
    refine .of_run (Reader.run_named colon name opening) (Reader.run_named colon name opening) ?_
    exact (gains _).bind
  | entry before spelled comma ih =>
    simp only [List.append_assoc]
    exact ih (spelled.due _).run_comma (spelled.due _).run_comma
      (BlockName.gains_skip spelled comma uneaten uneaten' gains)

/-- Stray tokens in a block of a definition with nothing wrong are one error, which points at the
first of them; the tournament is the same as without them. -/
theorem parse_recovers {strictness : Strictness} {n : BlockName} {t : Token}
    {front junk gap back : List Token} (clean : (parse strictness (front ++ back)).errors = [])
    (inside : Definition.Inside front n) (due : n.Due back)
    (foreign : ∀ u ∈ t :: junk, n.Foreign u) (comma : OptionalComma gap []) :
    parse strictness (front ++ (t :: junk ++ gap ++ back)) =
      { document := (parse strictness (front ++ back)).document
        errors := [
          { number := 1
            kind := match n with
              | .header | .player | .fixture | .scorer => .unknownAttribute
              | .teams | .elimination => .unknownSection
              | .roster | .fixtures | .scorers => .unexpectedToken
            message := SyntaxFault.strayMessage n t.quoted
            span := t.span }] } := by
  obtain ⟨faultless, counted⟩ := parse_errors_eq_nil_iff.1 clean
  have headless : Reader.comma.run (t :: (junk ++ (gap ++ back))) =
      ⟨(), [], t :: (junk ++ (gap ++ back))⟩ :=
    Reader.run_comma_of_ne (foreign t List.mem_cons_self).separates
  obtain ⟨before, after, split, run⟩ :=
    inside.gains strictness due.run_comma headless (BlockName.gains_stray foreign comma due)
  rw [faultless] at split
  obtain ⟨rfl, rfl⟩ := List.append_eq_nil_iff.1 split.symm
  rw [List.append_assoc, List.cons_append, parse, parse]
  rw [run]
  simp only [counted]
  cases n <;> rfl

/-- The start of a small definition, up to the first match of its final. -/
def Definition.finalFront : List Token :=
  [.onLine 0 (.keyword .tournament) "TORNEO", .onLine 6 (.symbol .lbrace) "\x7b",
    .onLine 7 (.attribute .teamCount) "equipos", .onLine 14 (.symbol .colon) ":",
    .onLine 15 .number "1", .onLine 16 (.symbol .comma) ",", .onLine 17 (.symbol .rbrace) "\x7d",
    .onLine 18 (.keyword .teams) "TEAMS", .onLine 23 (.symbol .lbrace) "\x7b",
    .onLine 24 (.keyword .team) "team", .onLine 28 (.symbol .colon) ":", .onLine 29 .string "A",
    .onLine 32 (.symbol .lbracket) "[", .onLine 33 (.symbol .rbracket) "]",
    .onLine 34 (.symbol .rbrace) "\x7d", .onLine 35 (.keyword .elimination) "ELIMINATION",
    .onLine 46 (.symbol .lbrace) "\x7b", .onLine 47 (.keyword (.phase .final)) "final",
    .onLine 52 (.symbol .colon) ":", .onLine 53 (.symbol .lbracket) "["]

/-- The rest of the small definition, after room for a player. -/
def Definition.finalBack : List Token :=
  [.onLine 74 (.keyword .fixture) "match", .onLine 79 (.symbol .colon) ":", .onLine 80 .string "A",
    .onLine 83 .versus "vs", .onLine 85 .string "TBD", .onLine 90 (.symbol .lbracket) "[",
    .onLine 91 (.symbol .rbracket) "]", .onLine 92 (.symbol .rbracket) "]",
    .onLine 93 (.symbol .rbrace) "\x7d"]

/-- The small definition is spelled as definitions are. -/
lemma Definition.final_spelled : Definition.Spelled (finalFront ++ finalBack)
    { header := [.teamCount 1 (.onLine 15 .number "1")]
      teams := [⟨.onLine 29 .string "A", []⟩]
      rounds := [⟨.final, [⟨.onLine 80 .string "A", .onLine 85 .string "TBD", []⟩]⟩] } :=
  .intro
    (.intro rfl rfl (.intro (.cons (.teamCount rfl rfl ⟨rfl, rfl⟩) (.present rfl) .nil) rfl))
    (.intro rfl rfl (.intro
      (.cons (.intro rfl rfl rfl rfl (.intro .nil rfl)) .absent .nil) rfl))
    (.intro rfl rfl (.intro
      (.cons (.intro rfl rfl rfl (.intro
        (.cons (.intro rfl rfl rfl rfl rfl rfl (.intro .nil rfl)) .absent .nil) rfl))
        .absent .nil) rfl))

/-- The small definition has no errors. -/
lemma Definition.final_clean : (parse {} (finalFront ++ finalBack)).errors = [] := by
  rw [parse_of_spelled final_spelled]
  decide

/-- The start of the small definition leads to the matches. -/
lemma Definition.inside_final : Inside finalFront .fixtures :=
  have header : Section .tournament Header.Item.Spelled (finalFront.take 7)
      [.teamCount 1 (.onLine 15 .number "1")] [] :=
    .intro rfl rfl (.intro (.cons (.teamCount rfl rfl ⟨rfl, rfl⟩) (.present rfl) .nil) rfl)
  have teams : Section .teams Team.Tree.Spelled ((finalFront.drop 7).take 8)
      [⟨.onLine 29 .string "A", []⟩] [] :=
    .intro rfl rfl (.intro (.cons (.intro rfl rfl rfl rfl (.intro .nil rfl)) .absent .nil) rfl)
  .fixtures (p := .final) (k := .onLine 47 (.keyword (.phase .final)) "final")
    (c := .onLine 52 (.symbol .colon) ":") (o := .onLine 53 (.symbol .lbracket) "[")
    (.elimination (k := .onLine 35 (.keyword .elimination) "ELIMINATION")
      (o := .onLine 46 (.symbol .lbrace) "\x7b") header teams rfl rfl) rfl rfl rfl

/-- What follows the word of a player that stands where a match is due. -/
def Definition.strayPlayer : List Token :=
  [.onLine 60 (.symbol .colon) ":", .onLine 61 .string "match", .onLine 68 (.symbol .lbracket) "[",
    .onLine 69 (.attribute .age) "age", .onLine 72 (.symbol .rbrace) "\x7d"]

/-- A whole player in front of a match is one error, and the match is read all the same. -/
theorem parse_recovers_before_match :
    (parse {} (Definition.finalFront ++ Definition.finalBack)).errors = [] ∧
    parse {} (Definition.finalFront ++ (Token.onLine 54 (.keyword .player) "player" ::
        Definition.strayPlayer ++ [Token.onLine 73 (.symbol .comma) ","] ++
        Definition.finalBack)) =
      { document :=
          { declaredTeams := 1, teams := [⟨"A", []⟩]
            bracket := { final := some [{ first := "A", second := "TBD" }] } }
        errors := [⟨1, .unexpectedToken, "expected 'match', found 'player'",
          ⟨⟨54, 1, 55⟩, ⟨60, 1, 61⟩⟩⟩] } := by
  refine ⟨Definition.final_clean, ?_⟩
  refine (parse_recovers Definition.final_clean Definition.inside_final
    ⟨_, _, rfl, .inl (by decide)⟩ (by decide) (.present rfl)).trans ?_
  rw [parse_of_spelled Definition.final_spelled]
  decide

end Knockout
