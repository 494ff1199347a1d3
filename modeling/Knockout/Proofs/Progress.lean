import Knockout.Proofs.Grammar.Acceptance

/-!
# Progress

Reading goes forward through the tokens. A loop of the readers is told by what it does at its head,
where it stops or makes a turn (`Loop`), and `Loop.Visits` lists the indices at which its head comes
by, each of them read off the tokens that a turn leaves. For the loops of a definition, nine of
blocks and the one that skips tokens (`Loop.OfDefinition`), the indices are those of the loop as it
runs, and each is greater than the one before it (`Loop.Forward`). The main statement is
`parse_progresses`.
-/

namespace Knockout

/-- A loop in which a value of type `σ` is read. -/
structure Loop (σ : Type) where
  /-- What one turn makes of the value so far and the tokens left; none where the loop stops. -/
  turn? : σ → List Token → Option (Outcome σ)
  /-- The whole loop, from a value on. -/
  reader : σ → Reader σ

namespace Loop

/-- The loop over the entries of a block stops at the closing symbol and at the end. -/
def ofBlock (b : Block ε) (entry : σ → ε → Reader σ) : Loop σ where
  turn?
    | _, [] => none
    | s, t :: rest =>
      if t.kind = .symbol b.closer then none else some ((b.turn entry s t).run rest)
  reader := b.entries entry

/-- The loop that skips a token in each turn stops at a token that is looked for. -/
def skipping (wanted : Kind → Bool) : Loop Unit where
  turn?
    | _, [] => none
    | _, t :: rest => if wanted t.kind then none else some ⟨(), [], rest⟩
  reader _ := Reader.skipTo wanted

/-- The loops of reading a definition. -/
inductive OfDefinition (strictness : Strictness) : {σ : Type} → Loop σ → Prop where
  | header : OfDefinition strictness (ofBlock Header.block Header.entry)
  | teams : OfDefinition strictness (ofBlock Team.block Team.entry)
  | roster : OfDefinition strictness (ofBlock Player.roster Player.rosterEntry)
  | player : OfDefinition strictness (ofBlock Player.block Player.entry)
  | elimination (teams : List Team) :
    OfDefinition strictness (ofBlock Bracket.block (Bracket.entry strictness teams))
  | fixtures (teams : List Team) (phase : Phase) :
    OfDefinition strictness
      (ofBlock Fixture.listBlock (Fixture.listEntry strictness teams phase))
  | fixture : OfDefinition strictness (ofBlock Fixture.block Fixture.entry)
  | scorers : OfDefinition strictness (ofBlock Scorer.listBlock Scorer.listEntry)
  | scorer : OfDefinition strictness (ofBlock Scorer.block Scorer.entry)
  /-- Where a block meets a stray token, tokens are skipped to where the block resumes. -/
  | skip (b : Block ε) : OfDefinition strictness (skipping b.resumes)

/-- From a value and an index on, the head of a loop comes by at some indices, and in the end the
loop has an outcome. Where a turn ends is told by the tokens that it leaves. -/
inductive Visits (loop : Loop σ) (tokens : List Token) : σ → Nat → List Nat → Outcome σ → Prop where
  | stop (stops : loop.turn? s (tokens.drop i) = none) :
    Visits loop tokens s i [i] ⟨s, [], tokens.drop i⟩
  | turn (turns : loop.turn? s (tokens.drop i) = some ⟨s', faults, tokens.drop k⟩)
    (inside : k ≤ tokens.length) (more : Visits loop tokens s' k heads o) :
    Visits loop tokens s i (i :: heads) ⟨o.value, faults ++ o.faults, o.rest⟩

/-- A loop that runs turn by turn, each of which takes a token. -/
structure Forward (loop : Loop σ) : Prop where
  /-- A turn leaves an end of the tokens, and fewer of them. -/
  shorter : ∀ s tokens o, loop.turn? s tokens = some o →
    o.rest <:+ tokens ∧ o.rest.length < tokens.length
  /-- Where there is no turn, the loop is over. -/
  stops : ∀ s tokens, loop.turn? s tokens = none → (loop.reader s).run tokens = ⟨s, [], tokens⟩
  /-- After a turn the loop goes on with what the turn has given and left. -/
  turns : ∀ s tokens o, loop.turn? s tokens = some o →
    (loop.reader s).run tokens =
      ⟨((loop.reader o.value).run o.rest).value,
        o.faults ++ ((loop.reader o.value).run o.rest).faults,
        ((loop.reader o.value).run o.rest).rest⟩

variable {σ : Type} {loop : Loop σ} {tokens rest : List Token} {s : σ} {i : Nat}
  {heads : List Nat} {o : Outcome σ}

/-- A turn of a block starts at a token that does not close it. -/
lemma exists_of_turn?_ofBlock {b : Block ε} {entry : σ → ε → Reader σ}
    (turns : (ofBlock b entry).turn? s tokens = some o) :
    ∃ t rest, tokens = t :: rest ∧ t.kind ≠ .symbol b.closer ∧ (b.turn entry s t).run rest = o := by
  cases tokens with
  | nil => cases turns
  | cons t rest =>
    simp only [ofBlock] at turns
    split at turns
    · cases turns
    · next unclosed => exact ⟨t, rest, rfl, unclosed, Option.some.inj turns⟩

/-- A turn of skipping starts at a token that is not looked for, and takes that token alone. -/
lemma exists_of_turn?_skipping {wanted : Kind → Bool} {s : Unit} {o : Outcome Unit}
    (turns : (skipping wanted).turn? s tokens = some o) :
    ∃ t rest, tokens = t :: rest ∧ ¬ wanted t.kind = true ∧ ⟨(), [], rest⟩ = o := by
  cases tokens with
  | nil => cases turns
  | cons t rest =>
    simp only [skipping] at turns
    split at turns
    · cases turns
    · next lost => exact ⟨t, rest, rfl, lost, Option.some.inj turns⟩

/-- The loop of a block takes at least the token at which a turn starts. -/
lemma forward_ofBlock (b : Block ε) (entry : σ → ε → Reader σ) : (ofBlock b entry).Forward where
  shorter s tokens o turns := by
    obtain ⟨t, rest, rfl, -, rfl⟩ := exists_of_turn?_ofBlock turns
    exact ⟨((b.turn entry s t).rest_suffix rest).trans (List.suffix_cons t rest),
      b.length_rest_turn_lt entry s t rest⟩
  stops s tokens stops := by
    cases tokens with
    | nil => exact Block.run_entries_nil s
    | cons t rest =>
      simp only [ofBlock] at stops
      split at stops
      · next closed => exact Block.run_entries_of_closer closed s rest
      · cases stops
  turns s tokens o turns := by
    obtain ⟨t, rest, rfl, unclosed, rfl⟩ := exists_of_turn?_ofBlock turns
    exact Block.run_entries_of_ne unclosed s rest

/-- The loop that skips tokens takes one in each turn. -/
lemma forward_skipping (wanted : Kind → Bool) : (skipping wanted).Forward where
  shorter s tokens o turns := by
    obtain ⟨t, rest, rfl, -, rfl⟩ := exists_of_turn?_skipping turns
    exact ⟨List.suffix_cons t rest, Nat.lt_succ_self _⟩
  stops s tokens stops := by
    cases tokens with
    | nil => rfl
    | cons t rest =>
      simp only [skipping] at stops
      split at stops
      · next found => simp [skipping, Reader.skipTo, found]
      · cases stops
  turns s tokens o turns := by
    obtain ⟨t, rest, rfl, lost, rfl⟩ := exists_of_turn?_skipping turns
    simp [skipping, Reader.skipTo, lost]

/-- All loops of a definition go forward. -/
lemma OfDefinition.forward {strictness : Strictness} (ours : OfDefinition strictness loop) :
    loop.Forward := by
  cases ours with
  | skip b => exact forward_skipping b.resumes
  | _ => exact forward_ofBlock _ _

/-- An end of the tokens left at an index, with fewer of them, is what is left at a later index. -/
lemma exists_drop (suffix : rest <:+ tokens.drop i)
    (shorter : rest.length < (tokens.drop i).length) :
    ∃ k, rest = tokens.drop k ∧ k ≤ tokens.length := by
  refine ⟨i + ((tokens.drop i).length - rest.length), ?_, ?_⟩
  · rw [← List.drop_drop]
    exact List.suffix_iff_eq_drop.1 suffix
  · rw [List.length_drop] at shorter ⊢
    omega

/-- However a loop starts, its head comes by at some indices, and what it does is what comes of the
turns between them. -/
lemma Forward.exists_visits (forward : loop.Forward) (tokens : List Token) (s : σ) (i : Nat) :
    ∃ heads, loop.Visits tokens s i heads ((loop.reader s).run (tokens.drop i)) := by
  -- the induction is on how many tokens are left
  generalize left : (tokens.drop i).length = n
  induction n using Nat.strongRecOn generalizing s i with
  | ind n ih =>
    cases turns : loop.turn? s (tokens.drop i) with
    | none =>
      rw [forward.stops s _ turns]
      exact ⟨[i], .stop turns⟩
    | some o =>
      obtain ⟨s', faults, rest⟩ := o
      obtain ⟨suffix, shorter⟩ := forward.shorter s _ _ turns
      obtain ⟨k, rfl, inside⟩ := exists_drop suffix shorter
      obtain ⟨heads, more⟩ := ih _ (left ▸ shorter) s' k rfl
      rw [forward.turns s _ _ turns]
      exact ⟨i :: heads, .turn turns inside more⟩

/-- A loop has no other outcome than the one its turns come to. -/
lemma Forward.outcome_eq (forward : loop.Forward) (visits : loop.Visits tokens s i heads o) :
    o = (loop.reader s).run (tokens.drop i) := by
  induction visits with
  | stop stops => exact (forward.stops _ _ stops).symm
  | turn turns _ _ ih => rw [forward.turns _ _ _ turns, ← ih]

/-- The head of a loop comes by at no index before the first. -/
lemma Forward.le_of_mem (forward : loop.Forward) (visits : loop.Visits tokens s i heads o)
    (inside : i ≤ tokens.length) : ∀ j ∈ heads, i ≤ j ∧ j ≤ tokens.length := by
  induction visits with
  | stop =>
    intro j mem
    rw [List.mem_singleton.1 mem]
    exact ⟨Nat.le_refl _, inside⟩
  | @turn _ i _ k _ _ _ turns reached _ ih =>
    have shorter := (forward.shorter _ _ _ turns).2
    rw [List.length_drop, List.length_drop] at shorter
    intro j mem
    obtain rfl | later := List.mem_cons.1 mem
    · exact ⟨Nat.le_refl _, inside⟩
    · obtain ⟨after, before⟩ := ih reached j later
      exact ⟨by omega, before⟩

/-- Every index is greater than the one before it. -/
lemma Forward.increasing (forward : loop.Forward) (visits : loop.Visits tokens s i heads o)
    (inside : i ≤ tokens.length) : heads.Pairwise (· < ·) := by
  induction visits with
  | stop => exact List.pairwise_singleton _ _
  | @turn _ i _ k _ _ _ turns reached more ih =>
    refine List.pairwise_cons.2 ⟨fun j later => ?_, ih reached⟩
    have shorter := (forward.shorter _ _ _ turns).2
    rw [List.length_drop, List.length_drop] at shorter
    have after := (forward.le_of_mem more reached j later).1
    omega

end Loop

/-- **Progress on any tokens.** However the tokens stand and however strictly they are judged, each
loop of reading a definition, from whatever value and index it starts, runs turn by turn: its head
comes by at indices that grow with every turn and never go beyond the end of the tokens, and what
its turns come to is what it does. Reading a definition stops at the end of the tokens. -/
theorem parse_progresses (strictness : Strictness) (tokens : List Token) :
    (∀ {σ : Type} {loop : Loop σ}, loop.OfDefinition strictness →
      ∀ (s : σ) (i : Nat), i ≤ tokens.length →
        (∃ heads, loop.Visits tokens s i heads ((loop.reader s).run (tokens.drop i))) ∧
        ∀ heads o, loop.Visits tokens s i heads o →
          heads.Pairwise (· < ·) ∧ (∀ j ∈ heads, j ≤ tokens.length) ∧
          o = (loop.reader s).run (tokens.drop i)) ∧
    ((Tournament.reader strictness).run tokens).rest = tokens.drop tokens.length := by
  refine ⟨fun {σ loop} ours s i inside => ?_, ?_⟩
  · have forward := ours.forward
    refine ⟨forward.exists_visits tokens s i, fun heads o visits => ⟨?_, ?_, ?_⟩⟩
    · exact forward.increasing visits inside
    · exact fun j mem => (forward.le_of_mem visits inside j mem).2
    · exact forward.outcome_eq visits
  · rw [Tournament.rest_reader, List.drop_length]

/-- The tokens of a header with a stray token and another one after it. -/
def strayTokens : List Token :=
  [.onLine 0 (.keyword .tournament) "TOURNEY", .onLine 7 (.symbol .lbrace) "\x7b",
    .onLine 8 (.symbol .rbracket) "]", .onLine 9 (.symbol .rbracket) "]"]

/-- After the first of the brackets the second is skipped, and both loops are at the end. -/
theorem parse_progresses_stray :
    (Loop.ofBlock Header.block Header.entry).OfDefinition {} ∧
    (Loop.skipping Header.block.resumes).OfDefinition {} ∧
    (∃ o, (Loop.ofBlock Header.block Header.entry).Visits strayTokens {} 2 [2, 4] o ∧
      [2, 4].Pairwise (· < ·) ∧
      o = (Header.block.entries Header.entry {}).run (strayTokens.drop 2)) ∧
    ∃ o, (Loop.skipping Header.block.resumes).Visits strayTokens () 3 [3, 4] o ∧
      [3, 4].Pairwise (· < ·) ∧
      o = (Reader.skipTo Header.block.resumes).run (strayTokens.drop 3) := by
  obtain ⟨progress, -⟩ := parse_progresses {} strayTokens
  have header : (Loop.ofBlock Header.block Header.entry).Visits strayTokens {} 2 [2, 4] _ :=
    .turn rfl (by decide) (.stop rfl)
  have skip : (Loop.skipping Header.block.resumes).Visits strayTokens () 3 [3, 4] _ :=
    .turn rfl (by decide) (.stop rfl)
  refine ⟨.header, .skip Header.block, ⟨_, header, ?_⟩, ⟨_, skip, ?_⟩⟩
  · obtain ⟨increasing, -, same⟩ := (progress .header {} 2 (by decide)).2 _ _ header
    exact ⟨increasing, same⟩
  · obtain ⟨increasing, -, same⟩ := (progress (.skip Header.block) () 3 (by decide)).2 _ _ skip
    exact ⟨increasing, same⟩

end Knockout
