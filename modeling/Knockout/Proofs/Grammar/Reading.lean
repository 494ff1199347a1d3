import Knockout.Proofs.Grammar.Spelling
import Knockout.Syntax.Block
import Mathlib.Tactic.Lemma

/-!
# Reading what a grammar spells

How the readers of tokens and of blocks go with the rules of the grammar, in both directions. A
reader that meets no structural fault (`Outcome.Intact`) has read something that is spelled, and
whatever is spelled is read in one definite way, with the rest of the tokens left alone.

All blocks share one loop, so the argument about it is made once: `Block.Follows` says what has to
be known of the entries of a block, and from it come `Block.Follows.run_read` (a spelled block is
read entry by entry) and `Block.Follows.spelled_of_intact` (a block that is read without structural
faults is spelled).
-/

namespace Knockout

/-- Nothing structural is wrong with what has been read. -/
def Outcome.Intact (o : Outcome α) : Prop := ∀ f ∈ o.faults, f.kind.isStructural = false

/-- Without any fault, none is structural. -/
lemma Outcome.Intact.of_clean {o : Outcome α} (clean : o.faults = []) : o.Intact := by
  rw [Intact, clean]
  exact fun _ mem => absurd mem List.not_mem_nil

/-- One structural fault is enough to break what has been read. -/
lemma Outcome.not_intact {o : Outcome α} {f : SyntaxFault} (mem : f ∈ o.faults)
    (structural : f.kind.isStructural = true) : ¬ o.Intact := by
  intro h
  rw [h f mem] at structural
  cases structural

namespace Reader

/-- One reader after another is intact exactly when both are. -/
lemma intact_bind {p : Reader α} {f : α → Reader β} {tokens : List Token} :
    ((p >>= f).run tokens).Intact ↔
      (p.run tokens).Intact ∧ ((f (p.run tokens).value).run (p.run tokens).rest).Intact := by
  simp only [Outcome.Intact, run_bind, List.mem_append, or_imp, forall_and]

/-- Where two readers together meet nothing structural, neither does the first. -/
lemma intact_of_bind {p : Reader α} {f : α → Reader β} {tokens : List Token}
    (h : ((p >>= f).run tokens).Intact) : (p.run tokens).Intact :=
  (intact_bind.1 h).1

/-- What comes after a reader without faults starts where that reader stops. -/
lemma run_bind_of_run {p : Reader α} {f : α → Reader β} {tokens rest : List Token} {a : α}
    (h : p.run tokens = ⟨a, [], rest⟩) : (p >>= f).run tokens = (f a).run rest := by
  simp [run_bind, h]

/-- A fault that is reported is the only one, and takes no tokens. -/
lemma run_report (fault : SyntaxFault) (tokens : List Token) :
    (report fault).run tokens = ⟨(), [fault], tokens⟩ := rfl

/-- What is skipped ends in front of the first token that is looked for. -/
lemma run_skipTo (p : Kind → Bool) (tokens : List Token) :
    (skipTo p).run tokens = ⟨(), [], tokens.dropWhile fun t => !p t.kind⟩ := rfl

section Tokens

variable {t : Token} {tokens rest : List Token} {k : Kind} {wanted : Expected}

/-- A token of the kind that is looked for is taken. -/
lemma run_expect (h : t.kind = k) : (expect k wanted).run (t :: rest) = ⟨some t, [], rest⟩ := by
  simp [expect, h]

/-- A token of another kind is taken too, with a fault. -/
lemma run_expect_of_ne (h : t.kind ≠ k) :
    (expect k wanted).run (t :: rest) = ⟨none, [.unexpected wanted t], rest⟩ := by
  simp [expect, h]

/-- If nothing structural is wrong, the token that was looked for is there. -/
lemma expect_of_intact (h : ((expect k wanted).run tokens).Intact) :
    ∃ t rest, tokens = t :: rest ∧ t.kind = k := by
  cases tokens with
  | nil => exact absurd h (Outcome.not_intact (f := .endOfInput wanted) (by simp [expect]) rfl)
  | cons t rest =>
    refine ⟨t, rest, rfl, Decidable.byContradiction fun ne => ?_⟩
    exact Outcome.not_intact (f := .unexpected wanted t) (by simp [expect, ne]) rfl h

/-- A symbol is read where it stands. -/
lemma run_symbol {s : Symbol} (h : t.kind = .symbol s) :
    (symbol s).run (t :: rest) = ⟨true, [], rest⟩ := by
  simp [symbol, run_expect h]

/-- If nothing structural is wrong, the symbol is there. -/
lemma symbol_of_intact {s : Symbol} (h : ((symbol s).run tokens).Intact) :
    ∃ t rest, tokens = t :: rest ∧ t.kind = .symbol s :=
  expect_of_intact (intact_of_bind h)

/-- A keyword is read where it stands. -/
lemma run_keyword {w : Keyword} (h : t.kind = .keyword w) :
    (keyword w).run (t :: rest) = ⟨true, [], rest⟩ := by
  simp [keyword, run_expect h]

/-- If nothing structural is wrong, the keyword is there. -/
lemma keyword_of_intact {w : Keyword} (h : ((keyword w).run tokens).Intact) :
    ∃ t rest, tokens = t :: rest ∧ t.kind = .keyword w :=
  expect_of_intact (intact_of_bind h)

/-- The word between two sides is read where it stands. -/
lemma run_versus (h : t.kind = .versus) : versus.run (t :: rest) = ⟨true, [], rest⟩ := by
  simp [versus, run_expect h]

/-- If nothing structural is wrong, the word between the sides is there. -/
lemma versus_of_intact (h : (versus.run tokens).Intact) :
    ∃ t rest, tokens = t :: rest ∧ t.kind = .versus :=
  expect_of_intact (intact_of_bind h)

/-- A string is read where it stands. -/
lemma run_string (h : t.kind = .string) : (string wanted).run (t :: rest) = ⟨some t, [], rest⟩ :=
  run_expect h

/-- If nothing structural is wrong, a string is there. -/
lemma string_of_intact (h : ((string wanted).run tokens).Intact) :
    ∃ t rest, tokens = t :: rest ∧ t.kind = .string :=
  expect_of_intact h

/-- A number is read with the token that spells it. -/
lemma run_number {n : UInt32} (h : t.SpellsNumber n) :
    (number wanted).run (t :: rest) = ⟨some (n, t), [], rest⟩ := by
  obtain ⟨kind, value⟩ := h
  simp [number, run_expect kind, value]

/-- A token that is no number gives none. -/
lemma run_number_of_ne (h : t.kind ≠ .number) :
    (number wanted).run (t :: rest) = ⟨none, [.unexpected wanted t], rest⟩ := by
  simp [number, run_expect_of_ne h]

/-- A number that does not fit into 32 bits is out of range. -/
lemma run_number_of_none (h : t.kind = .number) (value : Text.ofLiteral? t.lexeme = none) :
    (number wanted).run (t :: rest) = ⟨none, [.numberOutOfRange t], rest⟩ := by
  simp [number, run_expect h, value, run_report]

/-- If nothing structural is wrong, a token spells a number. -/
lemma number_of_intact (h : ((number wanted).run tokens).Intact) :
    ∃ t rest n, tokens = t :: rest ∧ t.SpellsNumber n := by
  obtain ⟨t, rest, rfl, kind⟩ := expect_of_intact (intact_of_bind h)
  rw [number, run_bind_of_run (run_expect kind)] at h
  cases value : Text.ofLiteral? t.lexeme with
  | some n => exact ⟨t, rest, n, rfl, kind, value⟩
  | none =>
    simp only [value] at h
    exact absurd (intact_of_bind h)
      (Outcome.not_intact (f := .numberOutOfRange t) (by simp [report]) rfl)

/-- A position is read from its word or from a string. -/
lemma run_position {p : Position} (h : t.SpellsPosition p) :
    position.run (t :: rest) = ⟨some p, [], rest⟩ := by
  cases h with
  | word kind => simp [position, kind]
  | string kind value => simp [position, kind, value]

/-- A string that spells no position is blamed for that. -/
lemma run_position_of_none (h : t.kind = .string) (value : Position.ofWord? t.lexeme = none) :
    position.run (t :: rest) = ⟨none, [.notAPosition t], rest⟩ := by
  simp [position, h, value]

/-- A token that is neither a string nor a position gives no position. -/
lemma run_position_of_ne (h : t.kind ≠ .string) (word : ∀ p, t.kind ≠ .position p) :
    position.run (t :: rest) = ⟨none, [.unexpected .position t], rest⟩ := by
  unfold position
  dsimp only
  split
  · exact absurd ‹_› (word _)
  · exact absurd ‹_› h
  · rfl

/-- If nothing structural is wrong, a token spells a position. -/
lemma position_of_intact (h : (position.run tokens).Intact) :
    ∃ t rest p, tokens = t :: rest ∧ t.SpellsPosition p := by
  cases tokens with
  | nil => exact absurd h (Outcome.not_intact (f := .endOfInput .position) (by simp [position]) rfl)
  | cons t rest =>
    cases kind : t.kind with
    | position p => exact ⟨t, rest, p, rfl, .word kind⟩
    | string =>
      cases value : Position.ofWord? t.lexeme with
      | some p => exact ⟨t, rest, p, rfl, .string kind value⟩
      | none =>
        exact absurd h
          (Outcome.not_intact (f := .notAPosition t) (by simp [position, kind, value]) rfl)
    | _ =>
      exact absurd h
        (Outcome.not_intact (f := .unexpected .position t) (by simp [position, kind]) rfl)

/-- A comma is passed over. -/
lemma run_comma (h : t.kind = .symbol .comma) : comma.run (t :: rest) = ⟨(), [], rest⟩ := by
  simp [comma, h]

/-- Any other token than a comma is left where it is. -/
lemma run_comma_of_ne (h : t.kind ≠ .symbol .comma) :
    comma.run (t :: rest) = ⟨(), [], t :: rest⟩ := by
  simp [comma, h]

/-- If nothing structural is wrong at the end, no token is left. -/
lemma ending_of_intact (h : (ending.run tokens).Intact) : tokens = [] := by
  cases tokens with
  | nil => rfl
  | cons t rest => exact absurd h (Outcome.not_intact (f := .trailing t) (by simp [ending]) rfl)

/-- A comma that is missing is no fault. -/
lemma faults_comma (tokens : List Token) : (comma.run tokens).faults = [] := by
  cases tokens with
  | nil => rfl
  | cons t rest =>
    by_cases h : t.kind = .symbol .comma
    · rw [run_comma h]
    · rw [run_comma_of_ne h]

/-- At most one comma is passed over. -/
lemma optionalComma_run (tokens : List Token) : OptionalComma tokens (comma.run tokens).rest := by
  cases tokens with
  | nil => exact .absent
  | cons t rest =>
    by_cases h : t.kind = .symbol .comma
    · rw [run_comma h]
      exact .present h
    · rw [run_comma_of_ne h]
      exact .absent

/-- What a name and its bracket lead to starts after them. -/
lemma run_named {f : Option Token → Reader β} {c v o : Token} (colon : c.kind = .symbol .colon)
    (name : v.kind = .string) (opening : o.kind = .symbol .lbracket) :
    (do
      let _ ← symbol .colon
      let name ← string wanted
      let _ ← symbol .lbracket
      f name).run (c :: v :: o :: tokens) = (f (some v)).run tokens := by
  rw [run_bind_of_run (run_symbol colon), run_bind_of_run (run_string name),
    run_bind_of_run (run_symbol opening)]

/-- Where a name and its bracket are looked for and nothing is wrong, they are there. -/
lemma named_of_intact {f : Option Token → Reader β}
    (h : ((do
      let _ ← symbol .colon
      let name ← string wanted
      let _ ← symbol .lbracket
      f name).run tokens).Intact) :
    ∃ c v o rest, tokens = c :: v :: o :: rest ∧ c.kind = .symbol .colon ∧ v.kind = .string ∧
      o.kind = .symbol .lbracket ∧ ((f (some v)).run rest).Intact := by
  obtain ⟨c, tokens, rfl, colon⟩ := symbol_of_intact (intact_of_bind h)
  rw [run_bind_of_run (run_symbol colon)] at h
  obtain ⟨v, tokens, rfl, name⟩ := string_of_intact (intact_of_bind h)
  rw [run_bind_of_run (run_string name)] at h
  obtain ⟨o, tokens, rfl, opening⟩ := symbol_of_intact (intact_of_bind h)
  rw [run_bind_of_run (run_symbol opening)] at h
  exact ⟨c, v, o, tokens, rfl, colon, name, opening, h⟩

end Tokens

end Reader

namespace Block

variable {ε σ α : Type} {b : Block ε} {entry : σ → ε → Reader σ} {G : Grammar α}
  {apply : σ → α → σ} {faults : σ → α → List SyntaxFault}

/-- There are no entries where the tokens end. -/
lemma run_entries_nil (s : σ) : (b.entries entry s).run [] = ⟨s, [], []⟩ := by
  change b.entriesFrom entry s [] = _
  rw [entriesFrom]

/-- The entries end in front of the closing symbol. -/
lemma run_entries_of_closer {t : Token} (closed : t.kind = .symbol b.closer) (s : σ)
    (rest : List Token) : (b.entries entry s).run (t :: rest) = ⟨s, [], t :: rest⟩ := by
  change b.entriesFrom entry s (t :: rest) = _
  rw [entriesFrom, if_pos closed]

/-- Where a block does not close, the loop is a turn and the loop again. -/
lemma run_entries_of_ne {t : Token} (ne : t.kind ≠ .symbol b.closer) (s : σ) (rest : List Token) :
    (b.entries entry s).run (t :: rest) = (b.turn entry s t >>= b.entries entry).run rest := by
  change b.entriesFrom entry s (t :: rest) = _
  rw [entriesFrom, if_neg ne]
  rfl

/-- The faults that entries bring with them one after another, when each changes the value read so
far by `apply`. -/
def faultsFrom (apply : σ → α → σ) (faults : σ → α → List SyntaxFault) :
    σ → List α → List SyntaxFault
  | _, [] => []
  | s, a :: as => faults s a ++ faultsFrom apply faults (apply s a) as

/-- Entries without faults have none together. -/
@[simp] lemma faultsFrom_nil (s : σ) (as : List α) :
    faultsFrom apply (fun _ _ => []) s as = [] := by
  induction as generalizing s with
  | nil => rfl
  | cons a as ih => exact ih (apply s a)

/-- Faults that do not depend on what was read before come one entry after another. -/
lemma faultsFrom_const (own : α → List SyntaxFault) (s : σ) (as : List α) :
    faultsFrom apply (fun _ => own) s as = as.flatMap own := by
  induction as generalizing s with
  | nil => rfl
  | cons a as ih => simp [faultsFrom, ih]

/-- What holds of the faults of each entry holds of all faults. -/
lemma forall_mem_faultsFrom {P : SyntaxFault → Prop} (each : ∀ s a, ∀ f ∈ faults s a, P f) (s : σ)
    (as : List α) : ∀ f ∈ faultsFrom apply faults s as, P f := by
  induction as generalizing s with
  | nil => simp [faultsFrom]
  | cons a as ih =>
    intro f mem
    cases List.mem_append.1 mem with
    | inl first => exact each s a f first
    | inr later => exact ih (apply s a) f later

/-- A block whose entries are those of a grammar: an entry of the grammar starts with a token that
starts an entry of the block and is read in one definite way, and an entry that is read intact is
one of the grammar. -/
structure Follows (b : Block ε) (entry : σ → ε → Reader σ) (G : Grammar α) (apply : σ → α → σ)
    (faults : σ → α → List SyntaxFault) : Prop where
  reads : ∀ {tokens a rest}, G tokens a rest → ∃ t front e, tokens = t :: front ∧
    b.entry? t.kind = some e ∧ ∀ s, (entry s e).run front = ⟨apply s a, faults s a, rest⟩
  spells : ∀ {t front e} (s : σ), b.entry? t.kind = some e → ((entry s e).run front).Intact →
    ∃ a, G (t :: front) a ((entry s e).run front).rest
  /-- No symbol starts an entry. -/
  punctuation : ∀ x : Symbol, b.entry? (.symbol x) = none
  closer_ne_comma : b.closer ≠ .comma

/-- A block whose entries all start with one keyword. -/
lemma Follows.of_keyword {b : Block Unit} {entry : σ → Unit → Reader σ} {word : Keyword}
    (starts : ∀ k, b.entry? k = if k = .keyword word then some () else none)
    (closer : b.closer ≠ .comma)
    (key : ∀ {tokens a rest}, G tokens a rest → ∃ k front, tokens = k :: front ∧
      k.kind = .keyword word)
    (reads : ∀ {k front a rest}, G (k :: front) a rest → ∀ s,
      (entry s ()).run front = ⟨apply s a, faults s a, rest⟩)
    (spells : ∀ {k front}, k.kind = .keyword word → ∀ s, ((entry s ()).run front).Intact →
      ∃ a, G (k :: front) a ((entry s ()).run front).rest) :
    b.Follows entry G apply faults where
  reads := by
    intro tokens a rest spelled
    obtain ⟨k, front, rfl, kind⟩ := key spelled
    exact ⟨k, front, (), rfl, by rw [starts, if_pos kind], reads spelled⟩
  spells := by
    intro t front e s start intact
    by_cases kind : t.kind = .keyword word
    · exact spells kind s intact
    · rw [starts, if_neg kind] at start
      cases start
  punctuation x := by rw [starts, if_neg nofun]
  closer_ne_comma := closer

/-- A turn on an entry reads the entry and the comma after it. -/
lemma run_turn {t : Token} {e : ε} {s s' : σ} {front mid next : List Token}
    {fs : List SyntaxFault} (start : b.entry? t.kind = some e)
    (run : (entry s e).run front = ⟨s', fs, mid⟩) (comma : Reader.comma.run mid = ⟨(), [], next⟩) :
    (b.turn entry s t).run front = ⟨s', fs, next⟩ := by
  simp [turn, start, run, comma]

/-- A turn that is intact is one on an entry, which is intact as well. -/
lemma turn_of_intact {t : Token} {s : σ} {front : List Token}
    (h : ((b.turn entry s t).run front).Intact) :
    ∃ e, b.entry? t.kind = some e ∧ ((entry s e).run front).Intact ∧
      (b.turn entry s t).run front =
        ⟨((entry s e).run front).value, ((entry s e).run front).faults,
          (Reader.comma.run ((entry s e).run front).rest).rest⟩ := by
  cases start : b.entry? t.kind with
  | some e =>
    refine ⟨e, rfl, ?_, run_turn start rfl ?_⟩
    · simp only [turn, start] at h
      exact Reader.intact_of_bind h
    · rw [← Reader.faults_comma ((entry s e).run front).rest]
  | none =>
    -- a token that starts no entry is a structural fault in every block
    simp only [turn, start] at h
    have structural : (SyntaxFault.stray b.name t).kind.isStructural = true := by
      simp only [SyntaxFault.kind]
      cases b.name <;> rfl
    exact absurd (Reader.intact_of_bind h)
      (Outcome.not_intact (f := .stray b.name t) (by simp [Reader.report]) structural)

namespace Follows

variable {tokens rest : List Token} {as : List α}

/-- No comma stands where an entry or the closer of a block does. -/
lemma head_ne_comma (h : b.Follows entry G apply faults) {c : Token}
    (entries : Entries G tokens as (c :: rest)) (close : c.kind = .symbol b.closer) :
    Reader.comma.run tokens = ⟨(), [], tokens⟩ := by
  cases entries with
  | nil =>
    apply Reader.run_comma_of_ne
    intro comma
    exact h.closer_ne_comma (Kind.symbol.inj (close.symm.trans comma))
  | cons first _ _ =>
    obtain ⟨t, front, e, rfl, start, -⟩ := h.reads first
    apply Reader.run_comma_of_ne
    intro comma
    rw [comma, h.punctuation] at start
    cases start

/-- Spelled entries are read one by one, up to the symbol that closes them. -/
lemma run_entriesFrom (h : b.Follows entry G apply faults) {c : Token}
    (entries : Entries G tokens as (c :: rest)) (close : c.kind = .symbol b.closer) (s : σ) :
    b.entriesFrom entry s tokens =
      ⟨as.foldl apply s, faultsFrom apply faults s as, c :: rest⟩ := by
  -- the closer stays where it is while the induction moves along the entries
  generalize stop : c :: rest = stopped at entries
  induction entries generalizing s with
  | nil =>
    subst stop
    rw [entriesFrom, if_pos close]
    rfl
  | @cons tokens a mid next as stopped first comma more ih =>
    subst stop
    obtain ⟨t, front, e, rfl, start, run⟩ := h.reads first
    have skip : Reader.comma.run mid = ⟨(), [], next⟩ := by
      cases comma with
      | absent => exact h.head_ne_comma more close
      | present comma => exact Reader.run_comma comma
    -- what starts an entry is no symbol, so the loop does not stop here
    have unclosed : t.kind ≠ .symbol b.closer := by
      intro closed
      rw [closed, h.punctuation] at start
      cases start
    rw [entriesFrom, if_neg unclosed]
    simp only [run_turn start (run s) skip, ih _ rfl, List.foldl_cons, faultsFrom]

/-- A spelled block is read entry by entry, and what follows it is left alone. -/
theorem run_read (h : b.Follows entry G apply faults)
    (body : Enclosed G b.closer tokens as rest) (s : σ) :
    (b.read entry s).run tokens = ⟨as.foldl apply s, faultsFrom apply faults s as, rest⟩ := by
  obtain ⟨entries, close⟩ := body
  have run : (b.entries entry s).run tokens = _ := h.run_entriesFrom entries close s
  simp [read, run, Reader.run_symbol close]

/-- If nothing structural is wrong, entries of the grammar stand up to where reading stops. -/
lemma entries_of_intact (h : b.Follows entry G apply faults) (s : σ) (tokens : List Token)
    (intact : (b.entriesFrom entry s tokens).Intact) :
    ∃ as, Entries G tokens as (b.entriesFrom entry s tokens).rest := by
  fun_induction entriesFrom b entry s tokens with
  | case1 => exact ⟨[], .nil⟩
  | case2 => exact ⟨[], .nil⟩
  | case3 s t front _ first later ih =>
    have both : first.Intact ∧ later.Intact := by
      simpa only [Outcome.Intact, List.mem_append, or_imp, forall_and] using intact
    obtain ⟨e, start, entryIntact, turned⟩ := turn_of_intact both.1
    obtain ⟨a, spelled⟩ := h.spells s start entryIntact
    obtain ⟨as, more⟩ := ih both.2
    -- the next entry starts after the comma of this one
    have next : first.rest = (Reader.comma.run ((entry s e).run front).rest).rest :=
      congrArg Outcome.rest turned
    refine ⟨a :: as, .cons spelled ?_ more⟩
    rw [next]
    exact Reader.optionalComma_run _

/-- A block that is read intact is spelled. -/
theorem spelled_of_intact (h : b.Follows entry G apply faults) {s : σ}
    (intact : ((b.read entry s).run tokens).Intact) :
    ∃ as, Enclosed G b.closer tokens as ((b.read entry s).run tokens).rest := by
  obtain ⟨entriesIntact, closing⟩ := Reader.intact_bind.1 intact
  obtain ⟨as, entries⟩ := h.entries_of_intact s tokens entriesIntact
  obtain ⟨c, rest, stop, close⟩ := Reader.symbol_of_intact (Reader.intact_of_bind closing)
  have left : ((b.read entry s).run tokens).rest = rest := by
    simp [read, stop, Reader.run_symbol close]
  rw [left]
  rw [show (b.entriesFrom entry s tokens).rest = c :: rest from stop] at entries
  exact ⟨as, .intro entries close⟩

/-- A spelled section is read entry by entry. -/
theorem run_section (h : b.Follows entry G apply faults) {word : Keyword}
    (closer : b.closer = .rbrace) (spelled : Section word G tokens as rest) (s : σ) :
    (do
      let _ ← Reader.keyword word
      let _ ← Reader.symbol .lbrace
      b.read entry s).run tokens = ⟨as.foldl apply s, faultsFrom apply faults s as, rest⟩ := by
  obtain ⟨key, opening, body⟩ := spelled
  rw [Reader.run_bind_of_run (Reader.run_keyword key),
    Reader.run_bind_of_run (Reader.run_symbol opening)]
  exact h.run_read (closer ▸ body) s

/-- If nothing structural is wrong, the section is spelled. -/
theorem section_of_intact (h : b.Follows entry G apply faults) {word : Keyword} {s : σ}
    (closer : b.closer = .rbrace) {r : Reader σ}
    (same : r = do
      let _ ← Reader.keyword word
      let _ ← Reader.symbol .lbrace
      b.read entry s)
    (intact : (r.run tokens).Intact) : ∃ as, Section word G tokens as (r.run tokens).rest := by
  subst same
  obtain ⟨k, tokens, rfl, key⟩ := Reader.keyword_of_intact (Reader.intact_of_bind intact)
  rw [Reader.run_bind_of_run (Reader.run_keyword key)] at intact ⊢
  obtain ⟨o, tokens, rfl, opening⟩ := Reader.symbol_of_intact (Reader.intact_of_bind intact)
  rw [Reader.run_bind_of_run (Reader.run_symbol opening)] at intact ⊢
  obtain ⟨as, body⟩ := h.spelled_of_intact intact
  exact ⟨as, .intro key opening (closer ▸ body)⟩

end Follows

end Block

end Knockout
