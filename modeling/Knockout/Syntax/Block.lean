import Knockout.Syntax.Reader

/-!
# Blocks

Every block of a definition is a repetition of entries up to a closing symbol. `Block` says for one
block which tokens start an entry and which symbol closes it; `Block.read` is the loop that all
blocks share. A token that starts no entry is one fault, and reading goes on at the next token that
starts an entry, separates entries or closes the block. Every turn of the loop takes a token
(`Block.length_rest_turn_lt`), which is why the loop ends.
-/

namespace Knockout

/-- A block whose entries are told apart by `ε`. -/
structure Block (ε : Type) where
  name : BlockName
  closer : Symbol
  /-- The entry that a token of this kind starts. -/
  entry? : Kind → Option ε

namespace Block

/-- Whether a token of this kind starts an entry. -/
def starts (b : Block ε) (k : Kind) : Bool := (b.entry? k).isSome

/-- Whether reading goes on at a token of this kind after a fault. -/
def resumes (b : Block ε) (k : Kind) : Bool :=
  b.starts k || k == .symbol .comma || k == .symbol b.closer

/-- One turn: an entry that starts with the token `t`, or a stray token with all that follows it up
to where reading goes on; then a comma, if there is one. -/
def turn (b : Block ε) (entry : σ → ε → Reader σ) (s : σ) (t : Token) : Reader σ := do
  match b.entry? t.kind with
  | some e =>
    let s ← entry s e
    Reader.comma
    return s
  | none =>
    Reader.report (.stray b.name t)
    Reader.skipTo b.resumes
    Reader.comma
    return s

/-- A turn leaves fewer tokens than there were with the token that started it. -/
theorem length_rest_turn_lt (b : Block ε) (entry : σ → ε → Reader σ) (s : σ) (t : Token)
    (rest : List Token) : ((b.turn entry s t).run rest).rest.length < (t :: rest).length :=
  Nat.lt_succ_of_le ((b.turn entry s t).rest_suffix rest).length_le

/-- Turn after turn, up to the closing symbol or the end of the tokens. -/
def entriesFrom (b : Block ε) (entry : σ → ε → Reader σ) (s : σ) : List Token → Outcome σ
  | [] => ⟨s, [], []⟩
  | t :: rest =>
    if t.kind = .symbol b.closer then ⟨s, [], t :: rest⟩
    else
      let first := (b.turn entry s t).run rest
      let later := entriesFrom b entry first.value first.rest
      ⟨later.value, first.faults ++ later.faults, later.rest⟩
termination_by tokens => tokens.length
decreasing_by exact b.length_rest_turn_lt entry s t rest

/-- The entries of a block; each changes the value read so far. -/
def entries (b : Block ε) (entry : σ → ε → Reader σ) (s : σ) : Reader σ where
  run := b.entriesFrom entry s
  rest_suffix tokens := by
    fun_induction entriesFrom b entry s tokens with
    | case1 => exact List.suffix_refl _
    | case2 => exact List.suffix_refl _
    | case3 s t rest _ _ _ ih =>
      exact ih.trans (((b.turn entry s t).rest_suffix rest).trans (List.suffix_cons t rest))

/-- The entries of a block and the symbol that closes it. -/
def read (b : Block ε) (entry : σ → ε → Reader σ) (s : σ) : Reader σ := do
  let s ← b.entries entry s
  let _ ← Reader.symbol b.closer
  return s

end Block

end Knockout
