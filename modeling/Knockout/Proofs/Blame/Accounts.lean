import Knockout.Proofs.Grammar.Rounds
import Knockout.Proofs.Invariant
import Mathlib.Algebra.Order.Group.Multiset

/-!
# Accounts of tokens

Every fault is about one token or about the end of the tokens, and no token is spent on two faults.
A reader hands tokens on with its value, so that a later fault may be about them: the name of a team
that turns out to be taken, the numeral that declares the number of teams. `Reader.Accounts` keeps
the books: what the faults are about, together with what is handed on, is covered by the tokens
taken and by those that were handed in. It says as well that faults come in the order of their
tokens, apart from those that come to light late, and that nothing but late faults follows the end
of the tokens.

The main statement is `Tournament.accounts_reader`.
-/

namespace Knockout

namespace SyntaxFault

/-- The token a fault is about. -/
def subject? : SyntaxFault → Option Token
  | .unexpected _ t | .numberOutOfRange t | .notAPosition t | .stray _ t | .trailing t
  | .duplicateTeam t | .unknownTeam t => some t
  | .teamCount _ _ count => count
  | .endOfInput _ => none

/-- Whether a fault comes to light only after the tokens behind its own have been read. -/
def isLate (f : SyntaxFault) : Bool := f.kind == .duplicateTeam || f.kind == .cardinalityMismatch

/-- The token of a fault that comes to light at once. -/
def mark? (f : SyntaxFault) : Option Token := if f.isLate then none else f.subject?

/-- A fault about a token is not about the end of them. -/
lemma isEndOfInput_of_subject {f : SyntaxFault} {t : Token} (subject : f.subject? = some t) :
    f.isEndOfInput = false := by
  cases f with
  | endOfInput => cases subject
  | _ => rfl

end SyntaxFault

/-- The books of one outcome: the tokens handed in, those handed on, and those taken. -/
structure Outcome.Accounts (o : Outcome α) (given kept : Multiset Token) (taken : List Token) :
    Prop where
  /-- No token is spent twice. -/
  balance : (o.faults.filterMap SyntaxFault.subject? : Multiset Token) + kept ≤ given + taken
  /-- Faults that come to light at once are about taken tokens, in their order. -/
  inOrder : (o.faults.filterMap SyntaxFault.mark?).Sublist taken
  /-- What says that the tokens end has seen them end. -/
  ended : ∀ f ∈ o.faults, f.isEndOfInput = true → o.rest = []
  /-- After the end of the tokens only late faults come to light. -/
  last : o.faults.Pairwise fun f g => f.isEndOfInput = true → g.mark? = none
  /-- The number of teams is not judged yet. -/
  uncounted : ∀ f ∈ o.faults, f.kind ≠ .cardinalityMismatch

/-- The reader keeps books about tokens: those handed in and those taken cover what its faults are
about and what it hands on. -/
def Reader.Accounts (given : Multiset Token) (p : Reader α) (kept : α → Multiset Token) : Prop :=
  ∀ tokens, ∃ taken, tokens = taken ++ (p.run tokens).rest ∧
    (p.run tokens).Accounts given (kept (p.run tokens).value) taken

/-- The reader spends no token twice and hands none on. -/
abbrev Reader.Tidy (p : Reader α) : Prop := p.Accounts 0 fun _ => 0

namespace Outcome.Accounts

variable {o : Outcome α} {a : α} {given kept : Multiset Token} {taken rest : List Token}
  {t : Token} {f : SyntaxFault}

/-- Without faults only the tokens handed on count. -/
lemma faultless (covered : kept ≤ given + taken) :
    (⟨a, [], rest⟩ : Outcome α).Accounts given kept taken where
  balance := by simpa using covered
  inOrder := List.nil_sublist taken
  ended := by simp
  last := .nil
  uncounted := by simp

/-- One fault about the one token taken. -/
lemma blamed (subject : f.subject? = some t) (prompt : f.isLate = false) :
    (⟨a, [f], rest⟩ : Outcome α).Accounts 0 0 [t] where
  balance := by simp [subject]
  inOrder := by simp [SyntaxFault.mark?, prompt, subject]
  ended := by
    intro g mem ending
    rw [List.mem_singleton.1 mem, SyntaxFault.isEndOfInput_of_subject subject] at ending
    cases ending
  last := List.pairwise_singleton _ f
  uncounted := by
    intro g mem kind
    rw [List.mem_singleton.1 mem] at kind
    simp [SyntaxFault.isLate, kind] at prompt

/-- The end of the tokens takes none. -/
lemma atEnd {wanted : Expected} : (⟨a, [.endOfInput wanted], []⟩ : Outcome α).Accounts 0 0 [] where
  balance := by simp [List.filterMap_cons, SyntaxFault.subject?]
  inOrder := by simp [SyntaxFault.mark?, SyntaxFault.subject?]
  ended := fun _ _ _ => rfl
  last := List.pairwise_singleton _ _
  uncounted := by simp [SyntaxFault.kind]

/-- More tokens may be taken than are accounted for. -/
lemma mono {more : List Token} (books : o.Accounts given kept taken) (sub : taken.Sublist more) :
    o.Accounts given kept more where
  balance := books.balance.trans (add_le_add le_rfl (Multiset.coe_le.2 sub.subperm))
  inOrder := books.inOrder.trans sub
  ended := books.ended
  last := books.last
  uncounted := books.uncounted

/-- Tokens that are not touched may be kept beside. -/
lemma beside (books : o.Accounts 0 kept taken) (more : Multiset Token) :
    o.Accounts more (more + kept) taken where
  balance := by
    have balance := books.balance
    rw [zero_add] at balance
    rw [add_left_comm]
    exact add_le_add le_rfl balance
  inOrder := books.inOrder
  ended := books.ended
  last := books.last
  uncounted := books.uncounted

/-- What is handed on by the first of two readers is handed to the second. -/
lemma append {b : β} {o' : Outcome β} {passed kept' : Multiset Token} {taken' : List Token}
    (first : o.Accounts given passed taken) (second : o'.Accounts passed kept' taken')
    (rest : o.rest = taken' ++ o'.rest) :
    (⟨b, o.faults ++ o'.faults, o'.rest⟩ : Outcome β).Accounts given kept' (taken ++ taken') where
  balance := by
    rw [List.filterMap_append, ← Multiset.coe_add, ← Multiset.coe_add]
    calc _ = (o.faults.filterMap SyntaxFault.subject? : Multiset Token) +
          ((o'.faults.filterMap SyntaxFault.subject? : Multiset Token) + kept') := add_assoc _ _ _
      _ ≤ (o.faults.filterMap SyntaxFault.subject? : Multiset Token) + (passed + taken') :=
        add_le_add le_rfl second.balance
      _ = ((o.faults.filterMap SyntaxFault.subject? : Multiset Token) + passed) + taken' :=
        (add_assoc _ _ _).symm
      _ ≤ (given + taken) + taken' := add_le_add first.balance le_rfl
      _ = _ := add_assoc _ _ _
  inOrder := by
    rw [List.filterMap_append]
    exact first.inOrder.append second.inOrder
  ended := by
    intro f mem ending
    obtain early | late := List.mem_append.1 mem
    · have silent := first.ended f early ending
      rw [silent] at rest
      exact (List.append_eq_nil_iff.1 rest.symm).2
    · exact second.ended f late ending
  last := by
    refine List.pairwise_append.2 ⟨first.last, second.last, fun f early g late ending => ?_⟩
    -- once the tokens have ended the second reader takes none, so it has none to mark
    have silent := first.ended f early ending
    rw [silent] at rest
    have marks := second.inOrder
    rw [(List.append_eq_nil_iff.1 rest.symm).1, List.sublist_nil,
      List.filterMap_eq_nil_iff] at marks
    exact marks g late
  uncounted := by
    intro f mem
    obtain early | late := List.mem_append.1 mem
    · exact first.uncounted f early
    · exact second.uncounted f late

end Outcome.Accounts

namespace Reader

variable {p : Reader α} {f : α → Reader β} {given : Multiset Token} {kept : α → Multiset Token}
  {kept' : β → Multiset Token}

/-- What is given may be handed on with a value. -/
lemma accounts_pure {a : α} (covered : kept a ≤ given) : (pure a : Reader α).Accounts given kept :=
  fun _ => ⟨[], rfl, .faultless (by simpa using covered)⟩

/-- One reader after another: the second is given what the first hands on. -/
lemma Accounts.bind (first : p.Accounts given kept) (next : ∀ a, (f a).Accounts (kept a) kept') :
    (p >>= f).Accounts given kept' := by
  intro tokens
  obtain ⟨taken, split, books⟩ := first tokens
  obtain ⟨taken', split', books'⟩ := next (p.run tokens).value (p.run tokens).rest
  refine ⟨taken ++ taken', ?_, ?_⟩
  · rw [run_bind, List.append_assoc, ← split']
    exact split
  · exact books.append books' split'

/-- Tokens that a reader does not touch may be kept beside it. -/
lemma Accounts.beside (books : p.Accounts 0 kept) (more : Multiset Token) :
    p.Accounts more fun a => more + kept a := by
  intro tokens
  obtain ⟨taken, split, books⟩ := books tokens
  exact ⟨taken, split, books.beside more⟩

/-- Tokens that a tidy reader does not know about are handed on. -/
lemma Tidy.beside (tidy : p.Tidy) (more : Multiset Token) : p.Accounts more fun _ => more := by
  have books := Accounts.beside tidy more
  simp only [add_zero] at books
  exact books

/-- Tokens handed on may be forgotten. -/
lemma Accounts.forget {less : α → Multiset Token} (books : p.Accounts given kept)
    (fewer : ∀ a, less a ≤ kept a) : p.Accounts given less := by
  intro tokens
  obtain ⟨taken, split, books⟩ := books tokens
  refine ⟨taken, split, ?_, books.inOrder, books.ended, books.last, books.uncounted⟩
  exact (add_le_add le_rfl (fewer _)).trans books.balance

/-! ## Readers of single tokens -/

/-- A token that is looked for is handed on, or it is the one that is blamed. -/
lemma accounts_expect (k : Kind) (wanted : Expected) :
    (expect k wanted).Accounts 0 fun t => t.toList := by
  intro tokens
  cases tokens with
  | nil => exact ⟨[], rfl, .atEnd⟩
  | cons t rest =>
    by_cases fits : t.kind = k
    · rw [run_expect fits]
      exact ⟨[t], rfl, .faultless (by simp)⟩
    · rw [run_expect_of_ne fits]
      exact ⟨[t], rfl, .blamed rfl rfl⟩

/-- A string that is read is handed on with its token. -/
lemma accounts_string (wanted : Expected) : (string wanted).Accounts 0 fun t => t.toList :=
  accounts_expect _ _

/-- Reading a symbol keeps no token. -/
lemma tidy_symbol (s : Symbol) : (symbol s).Tidy :=
  (accounts_expect _ _).bind fun _ => accounts_pure (Multiset.zero_le _)

/-- A numeral that does not fit is blamed itself, so it is not handed on. -/
lemma accounts_number (wanted : Expected) :
    (number wanted).Accounts 0 fun n => (n.map Prod.snd).toList := by
  intro tokens
  cases tokens with
  | nil => exact ⟨[], rfl, .atEnd⟩
  | cons t rest =>
    by_cases fits : t.kind = .number
    · cases value : Text.ofLiteral? t.lexeme with
      | some n =>
        rw [run_number ⟨fits, value⟩]
        exact ⟨[t], rfl, .faultless (by simp)⟩
      | none =>
        rw [run_number_of_none fits value]
        exact ⟨[t], rfl, .blamed rfl rfl⟩
    · rw [run_number_of_ne fits]
      exact ⟨[t], rfl, .blamed rfl rfl⟩

/-- Reading a number keeps no token. -/
lemma tidy_number (wanted : Expected) : (number wanted).Tidy :=
  (accounts_number wanted).forget fun _ => Multiset.zero_le _

/-- Reading a position keeps no token. -/
lemma tidy_position : position.Tidy := by
  intro tokens
  cases tokens with
  | nil => exact ⟨[], rfl, .atEnd⟩
  | cons t rest =>
    cases kind : t.kind with
    | position p =>
      rw [run_position (.word kind)]
      exact ⟨[t], rfl, .faultless (by simp)⟩
    | string =>
      cases value : Position.ofWord? t.lexeme with
      | some p =>
        rw [run_position (.string kind value)]
        exact ⟨[t], rfl, .faultless (by simp)⟩
      | none =>
        rw [run_position_of_none kind value]
        exact ⟨[t], rfl, .blamed rfl rfl⟩
    | _ =>
      rw [run_position_of_ne (by simp [kind]) (by simp [kind])]
      exact ⟨[t], rfl, .blamed rfl rfl⟩

/-- Passing over a comma keeps no token. -/
lemma tidy_comma : comma.Tidy := by
  intro tokens
  obtain ⟨taken, split⟩ := comma.rest_suffix tokens
  refine ⟨taken, split.symm, ?_⟩
  have faultless := faults_comma tokens
  generalize comma.run tokens = o at faultless
  obtain ⟨_, _, rest⟩ := o
  cases faultless
  exact .faultless (Multiset.zero_le _)

/-- Skipping tokens keeps none of them. -/
lemma tidy_skipTo (stop : Kind → Bool) : (skipTo stop).Tidy := by
  intro tokens
  obtain ⟨taken, split⟩ := (skipTo stop).rest_suffix tokens
  exact ⟨taken, split.symm, .faultless (Multiset.zero_le _)⟩

/-- Looking for the end keeps no token. -/
lemma tidy_ending : ending.Tidy := by
  intro tokens
  cases tokens with
  | nil => exact ⟨[], rfl, .faultless (by simp)⟩
  | cons t rest =>
    exact ⟨t :: rest, by simp [ending], (Outcome.Accounts.blamed rfl rfl).mono
      (List.singleton_sublist.2 List.mem_cons_self)⟩

end Reader

/-! ## Blocks -/

namespace Block

variable {ε σ : Type} {b : Block ε} {entry : σ → ε → Reader σ} {kept : σ → Multiset Token}

/-- A turn, with the token that it starts with. -/
lemma accounts_turn (each : ∀ s e, (entry s e).Accounts (kept s) kept) (s : σ) (t : Token)
    (rest : List Token) :
    ∃ taken, rest = taken ++ ((b.turn entry s t).run rest).rest ∧
      ((b.turn entry s t).run rest).Accounts (kept s) (kept ((b.turn entry s t).run rest).value)
        (t :: taken) := by
  cases start : b.entry? t.kind with
  | some e =>
    have books : (b.turn entry s t).Accounts (kept s) kept := by
      unfold turn
      rw [start]
      exact (each s e).bind fun s' => (Reader.tidy_comma.beside (kept s')).bind fun _ =>
        Reader.accounts_pure le_rfl
    obtain ⟨taken, split, books⟩ := books rest
    exact ⟨taken, split, books.mono (List.sublist_cons_self t taken)⟩
  | none =>
    have skip : (Reader.skipTo b.resumes >>= fun _ => Reader.comma >>= fun _ => pure s).Accounts
        (kept s) kept :=
      ((Reader.tidy_skipTo _).beside (kept s)).bind fun _ =>
        (Reader.tidy_comma.beside (kept s)).bind fun _ => Reader.accounts_pure le_rfl
    obtain ⟨taken, split, books⟩ := skip rest
    have prompt : (SyntaxFault.stray b.name t).isLate = false := by
      simp only [SyntaxFault.isLate, SyntaxFault.kind]
      cases b.name <;> rfl
    -- the stray token itself stands in front of those that are skipped
    have stray : (⟨(), [.stray b.name t], rest⟩ : Outcome Unit).Accounts 0 0 [t] :=
      .blamed rfl prompt
    have stray := stray.beside (kept s)
    rw [add_zero] at stray
    unfold turn
    rw [start]
    exact ⟨taken, split, stray.append books split⟩

/-- All entries of a block hand on what each of them hands on. -/
lemma accounts_entries (each : ∀ s e, (entry s e).Accounts (kept s) kept) (s : σ) :
    (b.entries entry s).Accounts (kept s) kept := by
  intro tokens
  induction h : tokens.length using Nat.strong_induction_on generalizing s tokens with
  | _ n ih =>
    cases tokens with
    | nil =>
      rw [run_entries_nil]
      exact ⟨[], rfl, .faultless (by simp)⟩
    | cons t rest =>
      by_cases closed : t.kind = .symbol b.closer
      · rw [run_entries_of_closer closed]
        exact ⟨[], rfl, .faultless (by simp)⟩
      · obtain ⟨taken, split, books⟩ := accounts_turn (b := b) each s t rest
        have shorter := b.length_rest_turn_lt entry s t rest
        rw [h] at shorter
        obtain ⟨later, splitLater, booksLater⟩ :=
          ih _ shorter ((b.turn entry s t).run rest).value ((b.turn entry s t).run rest).rest rfl
        rw [run_entries_of_ne closed, Reader.run_bind]
        refine ⟨t :: taken ++ later, ?_, books.append booksLater splitLater⟩
        rw [List.append_assoc, ← splitLater, List.cons_append, ← split]

/-- A block hands on what its entries do. -/
lemma accounts_read (each : ∀ s e, (entry s e).Accounts (kept s) kept) (s : σ) :
    (b.read entry s).Accounts (kept s) kept :=
  (accounts_entries each s).bind fun s' => ((Reader.tidy_symbol _).beside (kept s')).bind fun _ =>
    Reader.accounts_pure le_rfl

end Block

/-! ## The readers of a definition -/

/-- The name of a side is blamed at most once: it is a string that names no team, or no string. -/
lemma Fixture.tidy_side (strictness : Strictness) (teams : List Team) (wanted : Expected) :
    (side strictness teams wanted).Tidy := by
  intro tokens
  cases tokens with
  | nil => exact ⟨[], rfl, .atEnd⟩
  | cons t rest =>
    by_cases name : t.kind = .string
    · rw [run_side name, sideFaults]
      split
      · exact ⟨[t], rfl, .blamed rfl rfl⟩
      · exact ⟨[t], rfl, .faultless (Multiset.zero_le _)⟩
    · rw [run_side_of_ne name]
      exact ⟨[t], rfl, .blamed rfl rfl⟩

/-- To be tidy is kept by all ways to put readers together. -/
lemma Reader.tidy_invariant : Invariant @Tidy where
  pure := fun _ => accounts_pure (Multiset.zero_le _)
  bind := Accounts.bind
  expect := fun k wanted => (accounts_expect k wanted).forget fun _ => Multiset.zero_le _
  number := tidy_number
  position := tidy_position
  side := Fixture.tidy_side
  ending := tidy_ending
  read := Block.accounts_read

/-- The token that declares the number of teams is kept for the end. -/
def Header.kept (h : Header) : Multiset Token := (h.count.map Prod.snd).toList

/-- An entry of the header hands on the token of the number of teams. -/
lemma Header.accounts_entry (h : Header) (field : Field) :
    (entry h field).Accounts h.kept kept := by
  refine ((Reader.tidy_symbol _).beside h.kept).bind fun _ => ?_
  cases field with
  | name | venue =>
    refine ((Reader.accounts_string _).beside h.kept).bind fun t => ?_
    cases t <;> exact Reader.accounts_pure (Multiset.le_add_right _ _)
  | teamCount =>
    refine ((Reader.accounts_number _).beside h.kept).bind fun n => ?_
    cases n with
    | none => exact Reader.accounts_pure (Multiset.le_add_right _ _)
    | some n => exact Reader.accounts_pure (Multiset.le_add_left _ _)

/-- The header hands on one token at most, that of the number of teams. -/
lemma Header.accounts_reader : reader.Accounts 0 kept := by
  have body : (block.read entry {}).Accounts (kept {}) kept := Block.accounts_read accounts_entry {}
  have untouched : kept {} = 0 := rfl
  rw [untouched] at body
  exact (Reader.tidy_invariant.keyword _).bind fun _ => (Reader.tidy_symbol _).bind fun _ => body

/-- A name that turns out to be taken is blamed for that, after the roster has been read. -/
lemma Team.accounts_enrol (teams : List Team) (name : Option Token) (players : List Player) :
    (enrol teams name players).Accounts name.toList fun _ => 0 := by
  cases name with
  | none => exact Reader.accounts_pure (Multiset.zero_le _)
  | some t =>
    unfold enrol
    dsimp only
    split
    · intro tokens
      refine ⟨[], rfl, ?_, ?_, ?_, ?_, ?_⟩
      · simp [Reader.run_report, SyntaxFault.subject?]
      · simp [Reader.run_report, SyntaxFault.mark?, SyntaxFault.isLate, SyntaxFault.kind]
      · simp [Reader.run_report, SyntaxFault.isEndOfInput]
      · simp [Reader.run_report]
      · simp [Reader.run_report, SyntaxFault.kind]
    · exact Reader.accounts_pure (Multiset.zero_le _)

/-- A team keeps no token once it has been entered. -/
lemma Team.tidy_entry (teams : List Team) : (entry teams ()).Tidy :=
  (Reader.tidy_symbol _).bind fun _ => (Reader.accounts_string _).bind fun name =>
    ((Reader.tidy_symbol _).beside _).bind fun _ =>
      (Reader.Tidy.beside Reader.tidy_invariant.roster _).bind fun players =>
        accounts_enrol teams name players

/-- Reading a definition spends no token on two faults, and the token that declares the number of
teams is still to spend. -/
theorem Tournament.accounts_reader (strictness : Strictness) :
    (reader strictness).Accounts 0 fun t => (t.2.toList : Multiset Token) := by
  have keeps := Reader.tidy_invariant
  exact Header.accounts_reader.bind fun _ => ((keeps.teams Team.tidy_entry).beside _).bind
    fun teams => ((keeps.bracket strictness teams).beside _).bind fun _ =>
      (Reader.tidy_ending.beside _).bind fun _ => Reader.accounts_pure le_rfl

end Knockout
